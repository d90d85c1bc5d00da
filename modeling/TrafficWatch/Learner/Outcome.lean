import TrafficWatch.Learner.Calibration
import TrafficWatch.Failure

/-!
# Learner — Outcome

What comes of a training: why a model came into force, or why training was skipped.
-/

namespace TrafficWatch

/-- How far learning has come. -/
inductive Phase where
  /-- Nothing is in force. -/
  | warmUp
  /-- The score is the rate. -/
  | fallback
  /-- The score is that of a model. -/
  | model
deriving Repr, DecidableEq

/-- The name of a phase. -/
def Phase.name : Phase → String
  | warmUp => "warm_up"
  | fallback => "fallback"
  | model => "model"

/-- Why a model came into force. -/
inductive TrainingKind where
  /-- The first training. -/
  | baseline
  /-- A later training that gave a model. -/
  | retrain
  /-- A later training that gave a threshold for the rate. -/
  | recalibrate
  /-- It was read from files. -/
  | restore
deriving Repr, DecidableEq

namespace TrainingKind

/-- All kinds. -/
def all : List TrainingKind := [baseline, retrain, recalibrate, restore]

/-- The name of a kind. -/
def name : TrainingKind → String
  | baseline => "baseline"
  | retrain => "retrain"
  | recalibrate => "recalibrate"
  | restore => "restore"

/-- The kind of the given name. -/
def ofName? (name : String) : Option TrainingKind :=
  all.find? (·.name == name)

end TrainingKind

/-- Why a training was skipped. -/
inductive SkipReason where
  | inProgress
  | notTrained
  | tooFewSamples (available required : Nat)
  | degenerate (variance : Float)
  | fitFailed (fault : ModelFault)

/-- Variances are written with an exponent. -/
def varianceLayout : Decimal.Layout :=
  { Decimal.Layout.plain with least := some 1, greatest := some 0 }

namespace SkipReason

/-- The name of a reason. -/
def name : SkipReason → String
  | inProgress => "in_progress"
  | notTrained => "not_trained"
  | tooFewSamples .. => "insufficient_samples"
  | degenerate _ => "degenerate_data"
  | fitFailed _ => "fit_failed"

/-- The words for a reason. -/
def text : SkipReason → String
  | inProgress => "training already in progress"
  | notTrained => "detector is still warming up"
  | tooFewSamples available required => s!"only {available} of {required} samples available"
  | degenerate variance => "variance " ++ varianceLayout.text variance ++ " below guard"
  | fitFailed fault => "fit failed: " ++ (Failure.model fault).text

end SkipReason

/-- What comes of a training after the first. -/
inductive Outcome where
  | retrained (threshold : Float) (samples : Nat)
  | recalibrated (threshold : Float) (samples : Nat)
  | skipped (reason : SkipReason)

namespace Outcome

/-- The name of an outcome. -/
def name : Outcome → String
  | retrained .. => "retrained"
  | recalibrated .. => "recalibrated"
  | skipped _ => "skipped"

/-- Whether the training was skipped. -/
def isSkipped : Outcome → Bool
  | skipped _ => true
  | _ => false

end Outcome

end TrafficWatch
