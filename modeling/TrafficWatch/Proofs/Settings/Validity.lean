import TrafficWatch.Settings.Validity

/-!
# Settings — Validity

Settings can be run exactly when none of the rules is broken (`Settings.flaw?_eq_none`).  So there is
room for the clean events that the first training waits for, and the score quantile is a share.
-/

namespace TrafficWatch.Settings

variable {s : Settings}

theorem flaw?_eq_none : s.flaw? = none ↔ ∀ rule ∈ s.rules, rule.1 = false := by
  rw [flaw?, Option.map_eq_none_iff, List.find?_eq_none]
  simp only [Bool.not_eq_true]

/-- The first training waits for one event at least. -/
theorem baselineSize_pos (h : s.flaw? = none) : 0 < s.baselineSize := by
  have hrule := flaw?_eq_none.mp h (s.baselineSize == 0, .noBaseline) (by simp [rules])
  exact Nat.pos_of_ne_zero (by simpa using hrule)

/-- All the events that the first training waits for are remembered. -/
theorem baselineSize_le_cap (h : s.flaw? = none) : s.baselineSize ≤ s.baselineCap := by
  have hrule := flaw?_eq_none.mp h
    (decide (s.baselineCap < s.baselineSize), .capBelowBaseline s.baselineCap s.baselineSize)
    (by simp [rules])
  exact Nat.not_lt.mp (of_decide_eq_false hrule)

theorem baselineCap_pos (h : s.flaw? = none) : 0 < s.baselineCap :=
  Nat.lt_of_lt_of_le (baselineSize_pos h) (baselineSize_le_cap h)

/-- The share of training scores is one. -/
theorem isShare_scoreQuantile (h : s.flaw? = none) : isShare s.scoreQuantile = true := by
  have hrule := flaw?_eq_none.mp h (!isShare s.scoreQuantile, .shareOutOfRange s.scoreQuantile)
    (by simp [rules])
  exact Bool.not_eq_eq_eq_not.mp hrule

end TrafficWatch.Settings
