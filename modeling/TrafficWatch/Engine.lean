import TrafficWatch.Ledger.Text
import TrafficWatch.Pipeline
import TrafficWatch.Replay

/-!
# Engine

A pipeline at work.  The engine lets the detectors catch up with the queue (`Engine.settle`), starts a
training whenever the retrain interval has passed (`Engine.nextCycle`), and counts what it has
processed.  Trainings are numbered from one, whether or not they were skipped.
-/

namespace TrafficWatch

/-- A pipeline at work. -/
structure Engine where
  settings : Settings
  pipeline : Pipeline
  /-- How many trainings have been started. -/
  cycles : Nat
  /-- How many events have been taken from the queue. -/
  processed : Nat

/-- A training that the engine has started. -/
structure Cycle where
  number : Nat
  outcome : Outcome
  /-- The seconds between this training and the one before it, or the start. -/
  waitedSeconds : Nat

namespace Engine

/-- An engine at its start, if the settings can be run. -/
def start (settings : Deployment) (archive : Archive) (now : Instant) : Except Failure Engine := do
  let pipeline ← Pipeline.start settings archive true now
  return ⟨settings.toSettings, pipeline, 0, 0⟩

/-- The engine with its pipeline changed. -/
def onPipeline {α : Type} (g : Engine) (f : Pipeline → α × Pipeline) : α × Engine :=
  let (a, pipeline) := f g.pipeline
  (a, { g with pipeline })

/-- The next event is judged, if the queue offers one; whether it did. -/
def consume (g : Engine) (now : Instant) : Bool × Engine :=
  match g.pipeline.consume now with
  | (none, pipeline) => (false, { g with pipeline })
  | (some _, pipeline) => (true, { g with pipeline, processed := g.processed + 1 })

/-- The detectors catch up with the queue. -/
def settle (g : Engine) (now : Instant) : Engine :=
  let (verdicts, pipeline) := g.pipeline.pumpAll now
  { g with pipeline, processed := g.processed + verdicts.length }

/-- A training is started.  There is none without a learner. -/
def train (g : Engine) (now : Instant) : Option Cycle × Engine :=
  match g.pipeline.retrain? now with
  | none => (none, g)
  | some (outcome, pipeline) =>
    (some ⟨g.cycles + 1, outcome, g.settings.seconds .retrainInterval⟩,
      { g with pipeline, cycles := g.cycles + 1 })

/-- The next training, before which the detectors catch up with the queue, if there is a learner. -/
def nextCycle (g : Engine) (now : Instant) : Option Cycle × Engine :=
  match g.pipeline.detector.learner? with
  | none => (none, g)
  | some _ => (g.settle now).train now

/-- The events of a text arrive.  While the text is read the detectors catch up with the queue. -/
def replay (g : Engine) (text : List Char) (now : Instant) : Replay × Engine :=
  let r := Replay.ofText text
  let g := g.settle now
  (r, { g with pipeline := g.pipeline.seed r.events })

/-- The engine stops: how many events it has processed, and the engine after it.  Events that still
wait are not given out any more. -/
def shutdown (g : Engine) : Nat × Engine :=
  (g.processed, { g with pipeline := { g.pipeline with queue := g.pipeline.queue.cancel } })

/-- What is told about a drain of the ledger. -/
def drainReport (g : Engine) : List String × Engine :=
  let (drained, pipeline) := g.pipeline.drain
  (pipeline.ledger.drainReport drained (pipeline.detector.learner?.map (·.status)),
    { g with pipeline })

end Engine

end TrafficWatch
