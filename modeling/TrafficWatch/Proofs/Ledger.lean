import TrafficWatch.Ledger.Basic
import TrafficWatch.Proofs.Tally

/-!
# Ledger

A ledger and what it was kept of.  `Ledger.Keeps` compares a ledger with everything that has been
found since it was empty: what was drained and what waits is all of it, in order, and the counts and
the time of the last detection are those of the whole, whatever was drained.  It is kept by every
anomaly that is added (`Ledger.Keeps.push`) and by every drain (`Ledger.Keeps.drain`).
-/

namespace TrafficWatch.Ledger

/-- **A ledger accounts for what was found**, of which some was drained. -/
structure Keeps (l : Ledger) (drained found : List Anomaly) : Prop where
  waiting : drained ++ l.pending = found
  total : l.total = found.length
  sum : l.found.sum = found.length
  count : ∀ reason, l.found.count reason = found.countP fun a => decide (a.reason = reason)
  last : l.lastDetection = (found.map (·.detectedAt)).max?

theorem keeps_empty : empty.Keeps [] [] :=
  ⟨rfl, rfl, rfl, fun _ => rfl, rfl⟩

/-- The latest of times and one more. -/
theorem max?_snoc (times : List Instant) (t : Instant) :
    (times ++ [t]).max? = some (later times.max? t) := by
  cases times with
  | nil => rfl
  | cons first rest =>
      have hmax (last : Instant) : max last t = if last < t then t else last := by
        split
        · exact Int.max_eq_right (Int.le_of_lt ‹_›)
        · exact Int.max_eq_left (Int.not_lt.mp ‹_›)
      simp only [List.cons_append, List.max?_cons', List.foldl_append, List.foldl_cons,
        List.foldl_nil, later, hmax]

variable {l : Ledger} {drained found : List Anomaly}

/-- **An anomaly is added.** -/
theorem Keeps.push (h : l.Keeps drained found) (a : Anomaly) :
    (l.push a).Keeps drained (found ++ [a]) where
  waiting := by
    rw [← h.waiting, List.append_assoc]
    rfl
  total := by
    rw [List.length_append, ← h.total]
    rfl
  sum := by
    rw [List.length_append, ← h.sum]
    exact l.found.sum_increment a.reason
  count := fun reason => by
    rw [List.countP_append, ← h.count]
    refine (l.found.count_increment a.reason reason).trans ?_
    simp [List.countP_cons, eq_comm]
  last := by
    rw [List.map_append, List.map_singleton, max?_snoc, ← h.last]
    rfl

/-- **A drain** takes out what waits, and nothing is forgotten. -/
theorem Keeps.drain (h : l.Keeps drained found) : l.drain.2.Keeps (drained ++ l.drain.1) found where
  waiting := (List.append_nil _).trans h.waiting
  total := h.total
  sum := h.sum
  count := h.count
  last := h.last

/-- The ledger after what was found of one event, if anything. -/
def enter (l : Ledger) : Option Anomaly → Ledger
  | none => l
  | some a => l.push a

theorem Keeps.enter (h : l.Keeps drained found) (a : Option Anomaly) :
    (l.enter a).Keeps drained (found ++ a.toList) := by
  cases a with
  | none => exact (List.append_nil found).symm ▸ h
  | some a => exact h.push a

theorem observed_enter (l : Ledger) (a : Option Anomaly) : (l.enter a).observed = l.observed := by
  cases a <;> rfl

theorem Keeps.recordObserved (h : l.Keeps drained found) : l.recordObserved.Keeps drained found :=
  ⟨h.waiting, h.total, h.sum, h.count, h.last⟩

end TrafficWatch.Ledger
