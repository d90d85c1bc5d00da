import Mathlib.Algebra.BigOperators.Fin
import Mathlib.Analysis.Real.Sqrt
import TrafficWatch.Scalar

/-!
# Scalar — Exact arithmetic

The real numbers as scalars: what the numerical algorithms compute if no operation rounds.
-/

namespace TrafficWatch

/-- The real numbers.  There is one zero only, and its sign is taken to be positive. -/
noncomputable instance : Scalar ℝ where
  zero := 0
  one := 1
  sqrt := Real.sqrt
  abs x := |x|
  sign x := if x < 0 then -1 else 1
  positivePart x := max x 0
  isZero x := decide (x = 0)

namespace Scalar

theorem real_isZero {x : ℝ} : isZero x = true ↔ x = 0 :=
  decide_eq_true_iff

theorem sign_mul_sign (x : ℝ) : sign x * sign x = 1 := by
  change (if x < 0 then (-1 : ℝ) else 1) * (if x < 0 then (-1 : ℝ) else 1) = 1
  split_ifs <;> norm_num

theorem sign_mul_abs (x : ℝ) : sign x * |x| = x := by
  change (if x < 0 then (-1 : ℝ) else 1) * |x| = x
  split_ifs with hx
  · rw [abs_of_neg hx, neg_one_mul, neg_neg]
  · rw [abs_of_nonneg (not_lt.mp hx), one_mul]

theorem real_sum (xs : List ℝ) : sum xs = xs.sum :=
  List.sum_eq_foldl.symm

/-- A sum over all places. -/
theorem sum_map_finRange {n : Nat} (f : Fin n → ℝ) : sum ((List.finRange n).map f) = ∑ i, f i := by
  rw [real_sum, Fin.sum_univ_def]

/-- The product of two lists of one length. -/
theorem dot_map_finRange {n : Nat} (f g : Fin n → ℝ) :
    dot ((List.finRange n).map f) ((List.finRange n).map g) = ∑ i, f i * g i := by
  rw [dot, List.zipWith_map, List.zipWith_self]
  exact sum_map_finRange _

end Scalar

end TrafficWatch
