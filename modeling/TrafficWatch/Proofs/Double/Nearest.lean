import Mathlib.Algebra.Order.Field.Power
import Mathlib.Data.Real.Basic
import Mathlib.Tactic.Linarith
import Mathlib.Tactic.Positivity
import Mathlib.Tactic.Ring

/-!
# Double — Nearest

Rounding as the arithmetic of real numbers.  A number is rounded to the nearest multiple of a power of
two, which is chosen so that at most fifty-three bits remain and is never below the least one
(`RoundsTo`).  Rounding does not pass a number that has few enough bits itself (`RoundsTo.le_of_le`),
errs by little (`RoundsTo.error_le`), and takes a number back to a power of two that it exceeds by too
little to be noticed (`RoundsTo.absorb`).
-/

namespace TrafficWatch.Double

/-! ### Powers of two -/

/-- A power of two. -/
noncomputable def unit (t : ℤ) : ℝ :=
  ((2 ^ t : ℚ) : ℝ)

theorem unit_eq (t : ℤ) : unit t = 2 ^ t := by
  rw [unit]
  push_cast
  rfl

theorem unit_pos (t : ℤ) : 0 < unit t := by
  rw [unit_eq]
  positivity

theorem unit_add (s t : ℤ) : unit (s + t) = unit s * unit t := by
  rw [unit_eq, unit_eq, unit_eq, zpow_add₀ two_ne_zero]

theorem unit_add_one (t : ℤ) : unit (t + 1) = 2 * unit t := by
  rw [unit_eq, unit_eq, zpow_add_one₀ two_ne_zero]
  ring

theorem unit_natCast (n : ℕ) : unit n = 2 ^ n := by
  rw [unit_eq, zpow_natCast]

theorem unit_ofNat (n : ℕ) [n.AtLeastTwo] : unit ofNat(n) = 2 ^ (OfNat.ofNat n : ℕ) :=
  unit_natCast n

theorem unit_zero : unit 0 = 1 := by
  rw [unit_eq, zpow_zero]

theorem unit_le_iff {s t : ℤ} : unit s ≤ unit t ↔ s ≤ t := by
  rw [unit_eq, unit_eq]
  exact zpow_le_zpow_iff_right₀ one_lt_two

theorem unit_lt_iff {s t : ℤ} : unit s < unit t ↔ s < t := by
  rw [unit_eq, unit_eq]
  exact zpow_lt_zpow_iff_right₀ one_lt_two

/-- So many units are more of a smaller one. -/
theorem mul_unit_eq (x : ℝ) {t e : ℤ} (h : t ≤ e) : x * unit e = x * 2 ^ (e - t).toNat * unit t := by
  have he : e = ((e - t).toNat : ℤ) + t := by omega
  conv_lhs => rw [he, unit_add, unit_natCast]
  ring

/-! ### Rounding -/

/-- A number with at most fifty-three bits, or the power of two above. -/
def IsShort (b : ℝ) : Prop :=
  ∃ m j : ℤ, b = m * unit j ∧ |m| ≤ 2 ^ 53 ∧ -1074 ≤ j

/-- **A number is rounded** to so many units of a size that it decides itself. -/
structure RoundsTo (v : ℝ) (r t : ℤ) : Prop where
  least : -1074 ≤ t
  near : |v - r * unit t| ≤ unit (t - 1)
  lt : |v| < unit (t + 53)
  /-- Only the least unit goes with fewer bits. -/
  full : unit (t + 52) ≤ |v| ∨ t = -1074

theorem isShort_unit {t : ℤ} (h : -1074 ≤ t) : IsShort (unit t) :=
  ⟨1, t, by simp, by norm_num, h⟩

theorem isShort_zero : IsShort 0 :=
  ⟨0, 0, by simp, by norm_num, by norm_num⟩

theorem IsShort.neg {b : ℝ} (h : IsShort b) : IsShort (-b) := by
  obtain ⟨m, j, rfl, hm, hj⟩ := h
  exact ⟨-m, j, by push_cast; ring, by rwa [abs_neg], hj⟩

namespace RoundsTo

variable {v b : ℝ} {r t : ℤ}

theorem neg (h : RoundsTo v r t) : RoundsTo (-v) (-r) t where
  least := h.least
  near := by
    have heq : -v - ((-r : ℤ) : ℝ) * unit t = -(v - r * unit t) := by
      push_cast
      ring
    rw [heq, abs_neg]
    exact h.near
  lt := by
    rw [abs_neg]
    exact h.lt
  full := by
    rw [abs_neg]
    exact h.full

theorem two_mul_unit_pred (t : ℤ) : 2 * unit (t - 1) = unit t := by
  rw [← unit_add_one, sub_add_cancel]

/-- Rounding does not pass a multiple of the unit. -/
theorem le_of_le_mul (h : RoundsTo v r t) {n : ℤ} (hv : v ≤ n * unit t) : r ≤ n := by
  have hpos := unit_pos t
  have hhalf := two_mul_unit_pred t
  obtain ⟨hnear, -⟩ := abs_le.mp h.near
  have hlt : (r : ℝ) * unit t < (n + 1) * unit t := by linarith
  exact Int.lt_add_one_iff.mp (by exact_mod_cast lt_of_mul_lt_mul_right hlt hpos.le)

/-- With fifty-three bits of a smaller unit there are fifty-two of the next one at most. -/
theorem abs_mul_unit_le {m j : ℤ} (hm : |m| ≤ 2 ^ 53) (hj : j < t) :
    |(m : ℝ) * unit j| ≤ unit (t + 52) := by
  have hm : |(m : ℝ)| ≤ unit 53 := by
    rw [unit_ofNat]
    exact_mod_cast hm
  rw [abs_mul, abs_of_pos (unit_pos j)]
  calc |(m : ℝ)| * unit j ≤ unit 53 * unit j := mul_le_mul_of_nonneg_right hm (unit_pos j).le
    _ = unit (53 + j) := (unit_add _ _).symm
    _ ≤ unit (t + 52) := unit_le_iff.mpr (by omega)

/-- **Rounding does not pass a short number** above. -/
theorem le_of_le (h : RoundsTo v r t) (hb : IsShort b) (hv : v ≤ b) : r * unit t ≤ b := by
  have hmultiple {n : ℤ} (hn : v ≤ n * unit t) : r * unit t ≤ n * unit t :=
    mul_le_mul_of_nonneg_right (by exact_mod_cast h.le_of_le_mul hn) (unit_pos t).le
  obtain ⟨m, j, rfl, hm, hj⟩ := hb
  rcases le_or_gt t j with htj | hjt
  · have hunits : (m : ℝ) * unit j = ((m * 2 ^ (j - t).toNat : ℤ) : ℝ) * unit t := by
      push_cast
      exact mul_unit_eq _ htj
    rw [hunits] at hv ⊢
    exact hmultiple hv
  · -- the number has all bits, so the short one is not farther from zero
    have hsize := abs_mul_unit_le hm hjt
    have hfull := h.full.resolve_right (by omega)
    have hall : ((2 ^ 52 : ℤ) : ℝ) * unit t = unit (t + 52) := by
      rw [unit_add, unit_ofNat, Int.cast_pow, Int.cast_ofNat]
      ring
    have hupper := abs_le.mp hsize
    rcases le_abs.mp hfull with hpos | hneg
    · rw [le_antisymm hupper.2 (hpos.trans hv), ← hall]
      exact hmultiple (by rw [hall]; exact hv.trans hupper.2)
    · have hw : (r : ℝ) * unit t ≤ ((-2 ^ 52 : ℤ) : ℝ) * unit t := hmultiple (by
        push_cast at hall ⊢
        linarith)
      push_cast at hw hall
      linarith

/-- **Rounding does not pass a short number** below. -/
theorem ge_of_ge (h : RoundsTo v r t) (hb : IsShort b) (hv : b ≤ v) : b ≤ r * unit t := by
  have hneg := h.neg.le_of_le hb.neg (neg_le_neg hv)
  push_cast at hneg
  linarith

theorem abs_le_of_abs_le (h : RoundsTo v r t) (hb : IsShort b) (hv : |v| ≤ b) :
    |r * unit t| ≤ b := by
  obtain ⟨hlow, hhigh⟩ := abs_le.mp hv
  exact abs_le.mpr ⟨h.ge_of_ge hb.neg hlow, h.le_of_le hb hhigh⟩

/-- Rounding does not bring a number nearer to zero than a short one. -/
theorem le_abs_of_le_abs (h : RoundsTo v r t) (hb : IsShort b) (hv : b ≤ |v|) :
    b ≤ |r * unit t| := by
  rcases le_abs.mp hv with hpos | hneg
  · exact (h.ge_of_ge hb hpos).trans (le_abs_self _)
  · have hle := h.neg.ge_of_ge hb hneg
    push_cast at hle
    exact (hle.trans_eq (neg_mul _ _)).trans (neg_le_abs _)

/-- No number of units is nearer. -/
theorem near_of_units (h : RoundsTo v r t) (n : ℤ) : |v - r * unit t| ≤ |v - n * unit t| := by
  rcases eq_or_ne r n with rfl | hne
  · exact le_rfl
  · have hpos := unit_pos t
    have hhalf := two_mul_unit_pred t
    have hone : (1 : ℝ) ≤ |((r - n : ℤ) : ℝ)| := by
      exact_mod_cast Int.one_le_abs (sub_ne_zero.mpr hne)
    have hunit : unit t ≤ |r * unit t - n * unit t| := by
      rw [← sub_mul, abs_mul, abs_of_pos hpos, ← Int.cast_sub]
      exact le_mul_of_one_le_left hpos.le hone
    have htriangle := abs_sub_le (r * unit t) v (n * unit t)
    rw [abs_sub_comm (r * unit t) v] at htriangle
    have hnear := h.near
    linarith

/-- **No short number is nearer** to what is rounded. -/
theorem near_of_isShort (h : RoundsTo v r t) (hb : IsShort b) : |v - r * unit t| ≤ |v - b| := by
  obtain ⟨m, j, rfl, hm, hj⟩ := hb
  rcases le_or_gt t j with htj | hjt
  · rw [mul_unit_eq (m : ℝ) htj]
    exact_mod_cast h.near_of_units (m * 2 ^ (j - t).toNat)
  · -- the number has all bits, and what has as many units of that size stands between the two
    have hsize := abs_mul_unit_le hm hjt
    have hfull := h.full.resolve_right (by omega)
    have hall : unit (t + 52) = ((2 ^ 52 : ℤ) : ℝ) * unit t := by
      rw [unit_add, unit_ofNat, Int.cast_pow, Int.cast_ofNat]
      ring
    have hupper := abs_le.mp hsize
    rcases le_abs.mp hfull with hpos | hneg
    · refine (h.near_of_units (2 ^ 52)).trans ?_
      rw [← hall, abs_of_nonneg (by linarith), abs_of_nonneg (by linarith)]
      linarith
    · refine (h.near_of_units (-2 ^ 52)).trans ?_
      have hunits : ((-2 ^ 52 : ℤ) : ℝ) * unit t = -unit (t + 52) := by
        rw [hall]
        push_cast
        ring
      rw [hunits, abs_of_nonpos (by linarith), abs_of_nonpos (by linarith)]
      linarith

/-- **How far rounding errs**: by half of the last of fifty-three bits, or of the least unit. -/
theorem error_le (h : RoundsTo v r t) :
    |r * unit t - v| ≤ unit (-53) * |v| + unit (-1075) := by
  rw [abs_sub_comm]
  have hleast := unit_pos (-1075)
  rcases h.full with hfull | rfl
  · calc |v - r * unit t| ≤ unit (t - 1) := h.near
      _ = unit (-53) * unit (t + 52) := by rw [← unit_add]; congr 1; ring
      _ ≤ unit (-53) * |v| := mul_le_mul_of_nonneg_left hfull (unit_pos _).le
      _ ≤ unit (-53) * |v| + unit (-1075) := le_add_of_nonneg_right hleast.le
  · calc |v - r * unit (-1074)| ≤ unit (-1074 - 1) := h.near
      _ = unit (-1075) := by norm_num
      _ ≤ unit (-53) * |v| + unit (-1075) :=
          le_add_of_nonneg_left (mul_nonneg (unit_pos _).le (abs_nonneg v))

/-- **What exceeds a power of two by too little is rounded back to it.** -/
theorem absorb (h : RoundsTo v r t) {k : ℤ} (hk : -1074 ≤ k) (hv : |v| ≤ unit (k + 54) + unit k) :
    |r * unit t| ≤ unit (k + 54) := by
  rcases le_or_gt |v| (unit (k + 54)) with hle | hgt
  · exact h.abs_le_of_abs_le (isShort_unit (by omega)) hle
  · -- the size of the number leaves one unit only, and the excess is less than half of it
    have hpos := unit_pos k
    have hlow : k + 54 < t + 53 := unit_lt_iff.mp (hgt.trans h.lt)
    have hdouble : unit (k + 55) = 2 * unit (k + 54) := by rw [← unit_add_one]; congr 1; ring
    have hmore : unit k < unit (k + 54) := unit_lt_iff.mpr (by omega)
    have ht : t = k + 2 := by
      rcases h.full with hfull | hleast
      · have := unit_lt_iff.mp (hfull.trans_lt (by linarith : |v| < unit (k + 55)))
        omega
      · omega
    subst ht
    have hhalf : unit (k + 2 - 1) = 2 * unit k := by rw [← unit_add_one]; congr 1; ring
    have hunit : unit (k + 2) = 4 * unit k := by
      rw [← two_mul_unit_pred, hhalf]
      ring
    have hall : unit (k + 54) = 2 ^ 52 * unit (k + 2) := by
      rw [← unit_ofNat 52, ← unit_add]
      congr 1
      ring
    have hnear : |(r : ℝ)| * unit (k + 2) ≤ |v| + 2 * unit k := by
      have := abs_sub_abs_le_abs_sub ((r : ℝ) * unit (k + 2)) v
      have hnear := h.near
      rw [abs_sub_comm, hhalf] at hnear
      rw [abs_mul, abs_of_pos (unit_pos _)] at this
      linarith
    have hlt : |(r : ℝ)| * unit (k + 2) < (2 ^ 52 + 1) * unit (k + 2) := by linarith
    have hr : |r| ≤ 2 ^ 52 :=
      Int.lt_add_one_iff.mp (by exact_mod_cast lt_of_mul_lt_mul_right hlt (unit_pos _).le)
    rw [hall, abs_mul, abs_of_pos (unit_pos _)]
    exact mul_le_mul_of_nonneg_right (by exact_mod_cast hr) (unit_pos _).le

end RoundsTo

end TrafficWatch.Double
