import TrafficWatch.Pca.ScorerPool
import TrafficWatch.Learner.Calibration

/-!
# Learner — Active

The model in force: a way to score, and the threshold that was set for that way.  The two are replaced
together or not at all.  Each activation carries a version, one more than the one before
(`ActiveCell.swap`).  A score borrows a scorer from the pool of the model and brings it back; what
that leaves in the pool never shows in a score, so the model in force stays as it is.
-/

namespace TrafficWatch

/-- How an event is scored. -/
inductive Scoring where
  /-- There was too little variety to learn from: the score is the rate. -/
  | byRate
  /-- The score of a model. -/
  | byModel (pool : ScorerPool)

/-- A way to score with its threshold. -/
structure Active where
  scoring : Scoring
  threshold : Float
  /-- How many samples it was trained on, none if it was read from files. -/
  samples : Nat
  trainedAt : Instant
  version : Nat

namespace Active

/-- What was found in a training, not yet in force. -/
def ofCalibration (poolSize samples : Nat) (now : Instant) : Calibration → Active
  | .byRate threshold => ⟨.byRate, threshold, samples, now, 0⟩
  | .byModel model threshold => ⟨.byModel (.empty model poolSize), threshold, samples, now, 0⟩

/-- Whether the score is the rate. -/
def isFallback (a : Active) : Bool :=
  match a.scoring with
  | .byRate => true
  | .byModel _ => false

/-- The model by which events are scored. -/
def model? (a : Active) : Option PcaModel :=
  match a.scoring with
  | .byRate => none
  | .byModel pool => some pool.model

/-- The score of a vector. -/
def score (a : Active) (v : Features) : Float :=
  match a.scoring with
  | .byRate => v.rate
  | .byModel pool => (pool.score v).1

/-- Whether a score is beyond the threshold. -/
def isBeyond (a : Active) (score : Float) : Bool :=
  a.threshold < score

/-- Whether a vector is beyond the threshold, and its score. -/
def evaluate (a : Active) (v : Features) : Bool × Float :=
  (a.isBeyond (a.score v), a.score v)

end Active

/-- What is in force, if anything, and how many activations there have been. -/
structure ActiveCell where
  current : Option Active
  versions : Nat

namespace ActiveCell

/-- Nothing is in force. -/
def empty : ActiveCell := ⟨none, 0⟩

/-- The given scoring comes into force with the next version. -/
def swap (c : ActiveCell) (next : Active) : ActiveCell :=
  ⟨some { next with version := c.versions + 1 }, c.versions + 1⟩

end ActiveCell

end TrafficWatch
