import TrafficWatch.Metrics.Basic
import TrafficWatch.Decimal.Layout

/-!
# Metrics — Exposition

The text that a monitor reads.  Metrics of one name make a family, with a line of help, a line that
tells their type and a line for each of its series.  Families are sorted by name and series by the
values of their labels; a family without series is left out.
-/

namespace TrafficWatch

/-- A number with its labels. -/
structure Series where
  /-- Labels with their values, sorted by label. -/
  labels : List (String × String)
  value : Float

/-- Metrics of one name. -/
structure Family where
  name : String
  help : String
  type : String
  series : List Series

/-- Numbers stand around a point, whatever their size, and whole numbers without one. -/
def metricLayout : Decimal.Layout := .plain

namespace Series

/-- The labels between braces, if there are any. -/
def labelText (s : Series) : String :=
  if s.labels.isEmpty then ""
  else
    let one : String × String → String := fun (label, value) => label ++ "=\"" ++ value ++ "\""
    "\x7b" ++ ",".intercalate (s.labels.map one) ++ "\x7d"

/-- Whether a series stands before another one of its family, or both have the same labels. -/
def le (s t : Series) : Bool :=
  match compare (s.labels.map (·.2)) (t.labels.map (·.2)) with
  | .gt => false
  | _ => true

/-- A counter without labels. -/
def ofCount (n : Nat) : Series :=
  ⟨[], Decimal.nearest false n 0⟩

/-- A counter of anomalies. -/
def ofReason (entry : Reason × Nat) : Series :=
  ⟨[("detector", entry.1.detector), ("reason", entry.1.name)], Decimal.nearest false entry.2 0⟩

/-- A counter of trainings. -/
def ofKind (entry : TrainingKind × Nat) : Series :=
  ⟨[("kind", entry.1.name)], Decimal.nearest false entry.2 0⟩

end Series

namespace Family

/-- The lines of a family. -/
def lines (f : Family) : List String :=
  ["# HELP " ++ f.name ++ " " ++ f.help, "# TYPE " ++ f.name ++ " " ++ f.type] ++
    (f.series.mergeSort Series.le).map fun s =>
      f.name ++ s.labelText ++ " " ++ metricLayout.text s.value

end Family

namespace Metrics

/-- All families in order, with or without series. -/
def allFamilies (m : Metrics) : List Family := [
  ⟨"aegis_anomalies_total", "Total number of detected anomalies", "counter",
    m.anomalies.entries.map .ofReason⟩,
  ⟨"aegis_feature_events_dropped_total",
    "Total number of feature events dropped because the stream was full", "counter",
    [.ofCount m.dropped]⟩,
  ⟨"aegis_feature_events_observed_total",
    "Total number of feature events evaluated by the detector", "counter", [.ofCount m.observed]⟩,
  ⟨"aegis_model_threshold", "Decision threshold of the active anomaly model", "gauge",
    [⟨[], m.threshold⟩]⟩,
  ⟨"aegis_model_trainings_total", "Total number of anomaly model activations", "counter",
    m.trainings.entries.map .ofKind⟩]

/-- The families that are shown. -/
def families (m : Metrics) : List Family :=
  m.allFamilies.filter fun f => !f.series.isEmpty

/-- The lines that a monitor reads. -/
def exposition (m : Metrics) : List String :=
  m.families.flatMap (·.lines)

end Metrics

end TrafficWatch
