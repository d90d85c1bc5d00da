import TrafficWatch.Detector
import TrafficWatch.Event.Queue
import TrafficWatch.Ledger.Basic
import TrafficWatch.Metrics.Basic

/-!
# Pipeline

The way of an event: from the queue to the detectors, and into the ledger when it is an anomaly.  The
metrics and the archive hear of everything that comes into force on the way; whether events and
anomalies are counted in the metrics too can be chosen.
-/

namespace TrafficWatch

/-- The queue, the detectors and all that keeps what they find. -/
structure Pipeline where
  queue : EventQueue
  detector : Detector
  ledger : Ledger
  metrics : Metrics
  /-- Whether events and anomalies are counted in the metrics. -/
  isMeasured : Bool
  archive : Archive

namespace Pipeline

/-- The listener of a pipeline. -/
def listener : Listener (Archive × Metrics) :=
  Archive.listener.both Metrics.listener

/-- The pipeline of settings, if they can be run. -/
def start (settings : Deployment) (archive : Archive) (isMeasured : Bool) (now : Instant) :
    Except Failure Pipeline := do
  let (detector, archive, metrics) ←
    Detector.ofSettings listener settings archive now (archive, Metrics.empty)
  return ⟨.empty settings.queueCapacity, detector, .empty, metrics, isMeasured, archive⟩

/-- The metrics count, if they are to count what happens. -/
def measure (p : Pipeline) (f : Metrics → Metrics) : Pipeline :=
  if p.isMeasured then { p with metrics := f p.metrics } else p

/-- An event arrives; whether another one was shed for it. -/
def enqueue (p : Pipeline) (e : Event) : Bool × Pipeline :=
  let (shed, queue) := p.queue.enqueue e
  (shed, { p with queue })

/-- Events arrive one by one. -/
def seed (p : Pipeline) (events : List Event) : Pipeline :=
  { p with queue := p.queue.seed events }

/-- An anomaly is counted and goes into the ledger. -/
def flag (p : Pipeline) (a : Anomaly) : Pipeline :=
  let p := p.measure (·.recordAnomaly a.reason)
  { p with ledger := p.ledger.push a }

/-- An event is judged. -/
def process (p : Pipeline) (e : Event) (now : Instant) : Verdict × Pipeline :=
  let (v, detector, archive, metrics) :=
    p.detector.observe listener e now (p.archive, p.metrics)
  let p := { p with detector, archive, metrics, ledger := p.ledger.recordObserved }
  let p := p.measure fun m => m.recordObserved.syncDropped p.queue.dropped
  match v with
  | .normal => (v, p)
  | .anomaly reason => (v, p.flag ⟨e, reason, now⟩)

/-- The next event is judged, if the queue offers one. -/
def consume (p : Pipeline) (now : Instant) : Option Verdict × Pipeline :=
  match p.queue.dequeue with
  | (.event e, queue) =>
    let (v, p) := { p with queue }.process e now
    (some v, p)
  | (.waiting, _) | (.finished, _) => (none, p)

/-- Events are judged, one after the other, until the queue offers none or as many as given have
been judged. -/
def pump (p : Pipeline) (count : Nat) (now : Instant) : List Verdict × Pipeline :=
  match count with
  | 0 => ([], p)
  | count + 1 =>
    match p.consume now with
    | (none, p) => ([], p)
    | (some v, p) =>
      let (vs, p) := p.pump count now
      (v :: vs, p)

/-- All events that wait are judged. -/
def pumpAll (p : Pipeline) (now : Instant) : List Verdict × Pipeline :=
  p.pump p.queue.size now

/-- A training after the first, if there is a learner. -/
def retrain? (p : Pipeline) (now : Instant) : Option (Outcome × Pipeline) :=
  (p.detector.retrain? listener now (p.archive, p.metrics)).map
    fun (outcome, detector, archive, metrics) => (outcome, { p with detector, archive, metrics })

/-- The anomalies that wait are taken out of the ledger. -/
def drain (p : Pipeline) : List Anomaly × Pipeline :=
  let (drained, ledger) := p.ledger.drain
  (drained, { p with ledger })

end Pipeline

end TrafficWatch
