import TrafficWatch.Learner.Active
import TrafficWatch.Learner.Outcome
import TrafficWatch.Baseline.Buffer
import TrafficWatch.Verdict

/-!
# Learner

The detector that learns what is normal.  While it warms up it remembers clean events and finds
everything normal; when it has seen enough it trains for the first time.  From then on it judges
events by what is in force, keeps remembering clean ones, and can be trained again.

A `Listener` hears of everything that comes into force, at once: what it is told about is already in
force, and the training that brought it there is not yet over.  It may call the learner back, but a
training asked for meanwhile is skipped, so trainings never nest.  A training that does not succeed
changes nothing that is in force.
-/

namespace TrafficWatch

/-- The detector that learns. -/
structure Learner where
  settings : Deployment
  cell : ActiveCell
  buffer : BaselineBuffer
  /-- A training is going on. -/
  isTraining : Bool

/-- Something came into force. -/
structure Activation where
  kind : TrainingKind
  calibration : Calibration

/-- The threshold that came into force. -/
def Activation.threshold (a : Activation) : Float :=
  a.calibration.threshold

/-- What is done when something comes into force: the listener is given the learner and a state of its
own, and hands both back. -/
abbrev Listener (σ : Type) := Activation → Learner → σ → Learner × σ

/-- How a learner stands. -/
structure LearnerStatus where
  phase : Phase
  threshold : Option Float
  baselineSize : Nat
  trainedSamples : Nat
  version : Nat
  trainedAt : Option Instant

namespace Learner

/-- A learner that has seen nothing, if the settings can be run. -/
def start (s : Deployment) : Except Failure Learner :=
  match s.flaw? with
  | some flaw => .error (.settings flaw)
  | none =>
    match s.algorithm with
    | .isolationForest => .error (.unavailable .isolationForest)
    | .principalComponents => .ok ⟨s, .empty, .empty s.baselineCap, false⟩

/-- Whether anything is in force. -/
def isTrained (l : Learner) : Bool :=
  l.cell.current.isSome

/-- The phase of a learner. -/
def phase (l : Learner) : Phase :=
  match l.cell.current with
  | none => .warmUp
  | some a => if a.isFallback then .fallback else .model

/-- How the learner stands. -/
def status (l : Learner) : LearnerStatus where
  phase := l.phase
  threshold := l.cell.current.map (·.threshold)
  baselineSize := l.buffer.size
  trainedSamples := (l.cell.current.map (·.samples)).getD 0
  version := (l.cell.current.map (·.version)).getD 0
  trainedAt := l.cell.current.map (·.trainedAt)

/-- What was found comes into force. -/
def activate (l : Learner) (c : Calibration) (samples : Nat) (now : Instant) : Learner :=
  { l with cell := l.cell.swap (.ofCalibration l.settings.scorerPoolSize samples now c) }

/-- A sample is remembered. -/
def remember (l : Learner) (v : Features) (now : Instant) : Learner :=
  { l with buffer := (l.buffer.push ⟨now, v⟩).2 }

/-- The samples that are too old for a training are forgotten. -/
def forget (l : Learner) (now : Instant) : Learner :=
  { l with buffer := (l.buffer.prune (now - l.settings.duration .trainingWindow)).2 }

section Listening

variable {σ : Type}

/-- A training is over once what it brought, if anything, has been heard of. -/
def conclude (hear : Listener σ) (a : Option Activation) (l : Learner) (s : σ) : Learner × σ :=
  let (l, s) :=
    match a with
    | some a => hear a l s
    | none => (l, s)
  ({ l with isTraining := false }, s)

/-- What files hold comes into force. -/
def restore (hear : Listener σ) (c : Calibration) (now : Instant) (l : Learner) (s : σ) :
    Learner × σ :=
  hear ⟨.restore, c⟩ (l.activate c 0 now) s

/-- What the first training brings, if it succeeds. -/
def firstTraining (l : Learner) (now : Instant) : Option Activation × Learner :=
  let samples := l.buffer.features
  match l.settings.calibrate samples with
  | .ok c => (some ⟨.baseline, c⟩, l.activate c samples.length now)
  | .error _ => (none, l)

/-- The first training, unless one is going on or it is too early. -/
def trainFirst (hear : Listener σ) (now : Instant) (l : Learner) (s : σ) : Learner × σ :=
  if l.isTraining || l.isTrained || l.buffer.size < l.settings.baselineSize then (l, s)
  else
    let (a, l) := firstTraining { l with isTraining := true } now
    conclude hear a l s

/-- The verdict on an event, and the learner after it. -/
def observe (hear : Listener σ) (e : Event) (now : Instant) (l : Learner) (s : σ) :
    Verdict × Learner × σ :=
  let v := e.features
  let remembered := if e.isClean then l.remember v now else l
  match l.cell.current with
  | none =>
    if e.isClean && l.settings.baselineSize ≤ remembered.buffer.size then
      (.normal, trainFirst hear now remembered s)
    else (.normal, remembered, s)
  | some active =>
    if (active.evaluate v).1 then (.anomaly .outlier, remembered, s)
    else (.normal, remembered, s)

/-- What a training after the first brings, given what is in force and the samples. -/
def laterTraining (s : Deployment) (active : Active) (samples : List Features) :
    Except SkipReason Calibration :=
  if samples.length < s.minSamples then
    .error (.tooFewSamples samples.length s.minSamples)
  else
    let variance := totalVariance samples
    if s.isDegenerate variance && !active.isFallback then .error (.degenerate variance)
    else (s.calibrate samples).mapError .fitFailed

/-- A training after the first: its outcome, and what it brings. -/
def train (l : Learner) (now : Instant) : Outcome × Option Activation × Learner :=
  match l.cell.current with
  | none => (.skipped .notTrained, none, l)
  | some active =>
    let l := l.forget now
    let samples := l.buffer.features
    match laterTraining l.settings active samples with
    | .error reason => (.skipped reason, none, l)
    | .ok c =>
      let l := l.activate c samples.length now
      match c with
      | .byRate threshold =>
        (.recalibrated threshold samples.length, some ⟨.recalibrate, c⟩, l)
      | .byModel _ threshold =>
        (.retrained threshold samples.length, some ⟨.retrain, c⟩, l)

/-- A training after the first, unless one is going on. -/
def retrain (hear : Listener σ) (now : Instant) (l : Learner) (s : σ) : Outcome × Learner × σ :=
  if l.isTraining then (.skipped .inProgress, l, s)
  else
    let (outcome, a, l) := train { l with isTraining := true } now
    (outcome, conclude hear a l s)

end Listening

/-- The listener that does nothing. -/
def unheard : Listener Unit := fun _ l s => (l, s)

end Learner

end TrafficWatch
