import TrafficWatch.Event.Basic
import TrafficWatch.Tally
import TrafficWatch.Time.Instant
import TrafficWatch.Verdict

/-!
# Ledger

What the detectors have found.  Anomalies wait in the ledger, in the order in which they were found,
until someone drains it; the counts go on and are never reset.  The time of the last detection never
steps back, even when the clock does.
-/

namespace TrafficWatch

/-- An event that was found to be an anomaly. -/
structure Anomaly where
  event : Event
  reason : Reason
  detectedAt : Instant

/-- What the detectors have found. -/
structure Ledger where
  /-- Anomalies that nobody has drained yet, oldest first. -/
  pending : List Anomaly
  /-- How many events have been judged. -/
  observed : Nat
  /-- How many anomalies have been found. -/
  total : Nat
  /-- How many anomalies have been found, for each reason. -/
  found : Tally Reason
  lastDetection : Option Instant

namespace Ledger

/-- Nothing has been found. -/
def empty : Ledger := ⟨[], 0, 0, .empty, none⟩

/-- The number of anomalies that wait. -/
def size (l : Ledger) : Nat :=
  l.pending.length

/-- One more event has been judged. -/
def recordObserved (l : Ledger) : Ledger :=
  { l with observed := l.observed + 1 }

/-- The later of a time and another one, if there is another one. -/
def later (last : Option Instant) (t : Instant) : Instant :=
  match last with
  | none => t
  | some last => if last < t then t else last

/-- An anomaly is added. -/
def push (l : Ledger) (a : Anomaly) : Ledger :=
  { l with
    pending := l.pending ++ [a]
    total := l.total + 1
    found := l.found.increment a.reason
    lastDetection := some (later l.lastDetection a.detectedAt) }

/-- All anomalies that wait, and the ledger in which none does. -/
def drain (l : Ledger) : List Anomaly × Ledger :=
  (l.pending, { l with pending := [] })

end Ledger

end TrafficWatch
