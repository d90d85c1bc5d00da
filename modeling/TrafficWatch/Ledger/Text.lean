import TrafficWatch.Event.Text
import TrafficWatch.Learner.Basic
import TrafficWatch.Ledger.Basic
import TrafficWatch.Time.Calendar

/-!
# Ledger — Text

The ledger in writing: anomalies and counts as JSON, and the lines that tell people what has been
drained.
-/

namespace TrafficWatch

open Json (Value)

/-- The anomaly as an object. -/
def Anomaly.toJson (a : Anomaly) : Value :=
  .object [
    ("event", a.event.toJson),
    ("reason", a.reason.toJson),
    ("detected_at", .text a.detectedAt.inRecord)]

/-- The counts of the ledger as an object; reasons that have not been found are left out. -/
def Ledger.statsJson (l : Ledger) : Value :=
  .object [
    ("total_observed", .ofNat l.observed),
    ("total_anomalies", .ofNat l.total),
    ("by_reason", .object (l.found.entries.map fun (reason, n) => (reason.name, .ofNat n))),
    ("last_detection",
      match l.lastDetection with
      | some t => .text t.inRecord
      | none => .null)]

/-- Thresholds told to people stand around a point between a ten-thousandth and ten to the sixteenth,
and always show a point or an exponent. -/
def spokenLayout : Decimal.Layout where
  tie := .upward
  least := some (-4)
  greatest := some 15
  keepsPoint := true
  plusSign := false
  infinite := "inf"
  notANumber := "NaN"

/-- The word for a phase told to people. -/
def Phase.spoken : Phase → String
  | warmUp => "WarmUp"
  | fallback => "Fallback"
  | model => "Model"

/-- A threshold told to people, if there is one. -/
def spokenThreshold : Option Float → String
  | some x => "Some(" ++ spokenLayout.text x ++ ")"
  | none => "None"

/-- The line about an anomaly. -/
def Anomaly.line (a : Anomaly) : String :=
  s!"Incident candidate: {a.reason.name} client={a.event.clientKey} route={a.event.route} " ++
    s!"status={a.event.status.toNat} at {a.detectedAt.spoken}"

/-- The line about how a learner stands. -/
def LearnerStatus.line (s : LearnerStatus) : String :=
  s!"ML detector: {s.phase.spoken} threshold={spokenThreshold s.threshold} " ++
    s!"baseline={s.baselineSize}"

/-- The line about a drain of the ledger. -/
def Ledger.drainLine (l : Ledger) (drained : Nat) : String :=
  s!"Drained {drained} anomalies (observed: {l.observed}, total anomalies: {l.total})"

/-- What is told about a drain: nothing when nothing was drained. -/
def Ledger.drainReport (l : Ledger) (drained : List Anomaly) (learner : Option LearnerStatus) :
    List String :=
  if drained.isEmpty then []
  else
    drained.map (·.line) ++ l.drainLine drained.length :: (learner.map (·.line)).toList

end TrafficWatch
