import TrafficWatch.Learner.Basic
import TrafficWatch.Tally
import TrafficWatch.Verdict

/-!
# Metrics

Numbers that a monitor reads.  Counters only grow: the count of dropped events follows the total it is
told and stays where it is when it is told a smaller one.  Anomalies and trainings are counted by kind;
a kind that is asked for is shown from then on, even at zero.
-/

namespace TrafficWatch

/-- Numbers that a monitor reads. -/
structure Metrics where
  anomalies : Tally Reason
  observed : Nat
  dropped : Nat
  trainings : Tally TrainingKind
  threshold : Float

namespace Metrics

/-- Nothing has happened. -/
def empty : Metrics := ⟨.empty, 0, 0, .empty, 0.0⟩

/-- An anomaly was found. -/
def recordAnomaly (m : Metrics) (reason : Reason) : Metrics :=
  { m with anomalies := m.anomalies.increment reason }

/-- An event was judged. -/
def recordObserved (m : Metrics) : Metrics :=
  { m with observed := m.observed + 1 }

/-- The count of dropped events follows a total. -/
def syncDropped (m : Metrics) (total : Nat) : Metrics :=
  { m with dropped := max m.dropped total }

/-- Something came into force. -/
def recordActivation (m : Metrics) (kind : TrainingKind) (threshold : Float) : Metrics :=
  { m with trainings := m.trainings.increment kind, threshold }

/-- The count of the anomalies for a reason, which is shown from now on. -/
def anomalyCount (m : Metrics) (reason : Reason) : Nat × Metrics :=
  (m.anomalies.count reason, { m with anomalies := m.anomalies.touch reason })

/-- The count of the trainings of a kind, which is shown from now on. -/
def trainingCount (m : Metrics) (kind : TrainingKind) : Nat × Metrics :=
  (m.trainings.count kind, { m with trainings := m.trainings.touch kind })

/-- The metrics hear of what comes into force. -/
def listener : Listener Metrics := fun a l m =>
  (l, m.recordActivation a.kind a.threshold)

end Metrics

end TrafficWatch
