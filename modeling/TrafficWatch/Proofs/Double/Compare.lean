import TrafficWatch.Proofs.Double.Order
import TrafficWatch.Proofs.Double.Value

/-!
# Double — Compare

Finite doubles compare as their values do (`le_iff_value`, `lt_iff_value`).  Parts that are canonical
are compared by the exponent first, and an exponent that is greater stands for more than any mantissa
makes up for (`scaled_lt_scaled`); both zeros have the value zero and are equal.  What is at least as great as a
positive double is positive (`zero_lt_of_le`).
-/

namespace TrafficWatch.Double

open Float.Model (UnpackedFloat)
open Float.Model.UnpackedFloat (Sign)

/-! ### Canonical parts -/

/-- Of canonical parts, what comes first stands for less. -/
theorem scaled_lt_scaled {m n : Nat} {e f : Int} (hm : IsCanonical m e) (hn : IsCanonical n f)
    (h : (compare e f).then (compare m n) = .lt) : (m : ℚ) * 2 ^ e < n * 2 ^ f := by
  rcases Ordering.then_eq_lt.mp h with he | ⟨he, hmn⟩
  · have he := Int.compare_eq_lt.mp he
    have hleast := hm.least
    have hfull : 2 ^ 52 ≤ n := hn.full.resolve_right (by omega)
    calc (m : ℚ) * 2 ^ e < 2 ^ 53 * 2 ^ e :=
          mul_lt_mul_of_pos_right (by exact_mod_cast hm.lt) (by positivity)
      _ = 2 ^ 52 * 2 ^ (e + 1) := by rw [zpow_add_one₀ two_ne_zero]; ring
      _ ≤ n * 2 ^ f := by
          refine mul_le_mul (by exact_mod_cast hfull) ?_ (by positivity) (by positivity)
          exact zpow_le_zpow_right₀ one_le_two (by omega)
  · have he := Int.compare_eq_eq.mp he
    have hmn := Nat.compare_eq_lt.mp hmn
    subst he
    exact mul_lt_mul_of_pos_right (by exact_mod_cast hmn) (by positivity)

/-- **Canonical parts** compare as what they stand for. -/
theorem then_compare {m n : Nat} {e f : Int} (hm : IsCanonical m e) (hn : IsCanonical n f) :
    (compare e f).then (compare m n) = compare ((m : ℚ) * 2 ^ e) (n * 2 ^ f) := by
  cases h : (compare e f).then (compare m n) with
  | lt => exact (compare_lt_iff_lt.mpr (scaled_lt_scaled hm hn h)).symm
  | eq =>
      obtain ⟨he, hmn⟩ := Ordering.then_eq_eq.mp h
      rw [Int.compare_eq_eq.mp he, Nat.compare_eq_eq.mp hmn]
      exact (compare_eq_iff_eq.mpr rfl).symm
  | gt =>
      have hswap : (compare f e).then (compare n m) = .lt := by
        rw [compare_then_swap, h]
        rfl
      exact (compare_gt_iff_gt.mpr (scaled_lt_scaled hn hm hswap)).symm

/-! ### Values -/

theorem scaled_pos {m : Nat} (hm : 0 < m) (e : Int) : (0 : ℚ) < m * 2 ^ e :=
  mul_pos (by exact_mod_cast hm) (by positivity)

theorem valueOfParts_negative {m : Nat} {e : Int} (hm : 0 < m) :
    valueOfParts (.finite .negative m e hm) = -(m * 2 ^ e) := by
  change ((-(m : Int) : Int) : ℚ) * 2 ^ e = _
  push_cast
  ring

theorem valueOfParts_negative_lt {m : Nat} {e : Int} (hm : 0 < m) :
    valueOfParts (.finite .negative m e hm) < 0 := by
  rw [valueOfParts_negative]
  exact neg_neg_of_pos (scaled_pos hm e)

theorem compare_neg_neg (a b : ℚ) : compare (-a) (-b) = compare b a := by
  rcases lt_trichotomy b a with h | h | h
  · rw [compare_lt_iff_lt.mpr h, compare_lt_iff_lt.mpr (neg_lt_neg h)]
  · rw [h, compare_eq_iff_eq.mpr rfl, compare_eq_iff_eq.mpr rfl]
  · rw [compare_gt_iff_gt.mpr h, compare_gt_iff_gt.mpr (neg_lt_neg h)]

/-- **Parts of finite doubles** compare as their values do. -/
theorem compare_eq_value {u v : UnpackedFloat} (hu : u.isFinite = true) (hv : v.isFinite = true)
    (hpu : IsPacked u) (hpv : IsPacked v) :
    u.compare v = some (compare (valueOfParts u) (valueOfParts v)) := by
  have hlt {a b : ℚ} (h : a < b) : some Ordering.lt = some (compare a b) :=
    congrArg some (compare_lt_iff_lt.mpr h).symm
  have hgt {a b : ℚ} (h : b < a) : some Ordering.gt = some (compare a b) :=
    congrArg some (compare_gt_iff_gt.mpr h).symm
  rcases u with _ | _ | s | ⟨_ | _, m, e, hm⟩ <;> rcases v with _ | _ | t | ⟨_ | _, n, f, hn⟩
  case zero.zero => exact congrArg some (compare_eq_iff_eq.mpr rfl).symm
  case zero.finite.negative => exact hgt (valueOfParts_negative_lt hn)
  case zero.finite.positive => exact hlt (scaled_pos hn f)
  case finite.negative.zero => exact hlt (valueOfParts_negative_lt hm)
  case finite.positive.zero => exact hgt (scaled_pos hm e)
  case finite.negative.finite.positive =>
      exact hlt (lt_trans (valueOfParts_negative_lt hm) (scaled_pos hn f))
  case finite.positive.finite.negative =>
      exact hgt (lt_trans (valueOfParts_negative_lt hn) (scaled_pos hm e))
  case finite.positive.finite.positive =>
      exact congrArg some (then_compare (hpu _ _ _ _ rfl) (hpv _ _ _ _ rfl))
  case finite.negative.finite.negative =>
      -- among negative numbers the order is turned round, on both sides
      rw [valueOfParts_negative, valueOfParts_negative, compare_neg_neg,
        ← then_compare (hpv _ _ _ _ rfl) (hpu _ _ _ _ rfl), compare_then_swap]
      rfl
  all_goals first
    | exact absurd hu Bool.false_ne_true
    | exact absurd hv Bool.false_ne_true

/-! ### Doubles -/

variable {x y : Float}

theorem compare_parts (hx : x.isFinite = true) (hy : y.isFinite = true) :
    (parts x).compare (parts y) = some (compare (value x) (value y)) :=
  compare_eq_value hx hy (fun _ _ _ _ => isCanonical_of_parts) fun _ _ _ _ => isCanonical_of_parts

/-- **Finite doubles are ordered as their values.** -/
theorem le_iff_value (hx : x.isFinite = true) (hy : y.isFinite = true) :
    x ≤ y ↔ value x ≤ value y := by
  rw [le_iff, compare_parts hx hy, ← compare_le_iff_le]
  exact Ordering.ne_gt_iff_isLE.symm

theorem lt_iff_value (hx : x.isFinite = true) (hy : y.isFinite = true) :
    x < y ↔ value x < value y := by
  rw [lt_iff, compare_parts hx hy, Option.some_inj, compare_lt_iff_lt]

/-! ### Positive doubles -/

theorem le_of_lt (h : x < y) : x ≤ y := by
  rw [le_iff, (lt_iff x y).mp h]
  rfl

/-- What is not below a positive number is positive. -/
theorem zero_lt_of_le (hx : 0.0 < x) (h : x ≤ y) : 0.0 < y := by
  rw [lt_iff] at hx ⊢
  rw [le_iff] at h
  change (UnpackedFloat.zero .positive).compare _ = _ at hx ⊢
  generalize parts x = u at hx h
  generalize parts y = v at h ⊢
  rcases u with (_ | _) | _ | _ | ⟨_ | _, m, e, hm⟩ <;>
    rcases v with (_ | _) | _ | _ | ⟨_ | _, n, f, hn⟩ <;>
    first
    | rfl
    | exact absurd h Bool.false_ne_true
    | cases hx

/-! ### Values -/

theorem value_zero : value 0.0 = 0 :=
  rfl

theorem value_one : value 1.0 = 1 := by
  change ((2 ^ 52 : Nat) : ℚ) * 2 ^ (-52 : Int) = 1
  norm_num

end TrafficWatch.Double
