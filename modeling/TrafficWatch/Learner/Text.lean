import TrafficWatch.Json.Value
import TrafficWatch.Learner.Basic
import TrafficWatch.Time.Calendar

/-!
# Learner — Text

How a learner stands, as JSON.
-/

namespace TrafficWatch

open Json (Value)

/-- A value, or null when there is none. -/
def Json.Value.orNull {α : Type} (f : α → Value) : Option α → Value
  | some a => f a
  | none => .null

/-- How the learner stands, as an object. -/
def LearnerStatus.toJson (s : LearnerStatus) : Value :=
  .object [
    ("phase", .text s.phase.name),
    ("threshold", .orNull .ofFloat s.threshold),
    ("baseline_len", .ofNat s.baselineSize),
    ("trained_samples", .ofNat s.trainedSamples),
    ("version", .ofNat s.version),
    ("trained_at", .orNull (fun t => .text t.inRecord) s.trainedAt)]

end TrafficWatch
