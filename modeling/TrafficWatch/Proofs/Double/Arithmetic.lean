import Mathlib.Analysis.Real.Sqrt
import TrafficWatch.Proofs.Double.Rounding

/-!
# Double — Arithmetic

The operations on finite doubles are those of arithmetic, rounded: sums, differences, products,
quotients, square roots, and natural numbers as doubles (`isRounded_add` to `isRounded_ofNat`).
-/

namespace TrafficWatch.Double

open Float.Model (Format UnpackedFloat totalExponent)
open Float.Model.UnpackedFloat (Sign Accuracy ExtendedMantissa roundWithAccuracy)

/-! ### Parts of finite doubles -/

/-- Parts as they stand in the bits of a finite double. -/
structure IsProper (u : UnpackedFloat) : Prop where
  finite : u.isFinite = true
  packed : IsPacked u

theorem isProper_parts {x : Float} (h : x.isFinite = true) : IsProper (parts x) :=
  ⟨h, fun _ _ _ _ => isCanonical_of_parts⟩

theorem IsProper.neg {u : UnpackedFloat} (h : IsProper u) : IsProper u.neg := by
  obtain ⟨hfinite, hpacked⟩ := h
  cases u with
  | notANumber | infinity s => cases hfinite
  | zero s => exact ⟨rfl, nofun⟩
  | finite s m e hm =>
      refine ⟨rfl, fun s' m' e' hm' heq => ?_⟩
      cases heq
      exact hpacked s m e hm rfl

@[simp]
theorem valueOfParts_zero (s : Sign) : valueOfParts (.zero s) = 0 :=
  rfl

theorem valueOfParts_finite (s : Sign) {m : ℕ} {e : ℤ} (hm : 0 < m) :
    (valueOfParts (.finite s m e hm) : ℝ) = oneOfSign s * (m * unit e) := by
  rw [valueOfParts, unit, ← mul_assoc, ← apply_eq]
  push_cast
  rfl

theorem oneOfSign_neg (s : Sign) : oneOfSign (-s) = -oneOfSign s := by
  rw [oneOfSign, oneOfSign, ← Int.cast_neg]
  exact congrArg _ (by cases s <;> rfl)

theorem oneOfSign_mul (s t : Sign) : oneOfSign (s * t) = oneOfSign s * oneOfSign t := by
  rw [oneOfSign, oneOfSign, oneOfSign, ← Int.cast_mul]
  exact congrArg _ (by cases s <;> cases t <;> rfl)

theorem oneOfSign_div (s t : Sign) : oneOfSign (s / t) = oneOfSign s / oneOfSign t := by
  have hdiv : s / t = s * t := by cases s <;> cases t <;> rfl
  have hinv : (oneOfSign t)⁻¹ = oneOfSign t := by cases t <;> simp
  rw [hdiv, oneOfSign_mul, div_eq_mul_inv, hinv]

theorem valueOfParts_neg {u : UnpackedFloat} (h : u.isFinite = true) :
    (valueOfParts u.neg : ℝ) = -valueOfParts u := by
  cases u with
  | notANumber | infinity s => cases h
  | zero s => simp [UnpackedFloat.neg]
  | finite s m e hm =>
      rw [UnpackedFloat.neg, valueOfParts_finite, valueOfParts_finite, oneOfSign_neg, neg_mul]

theorem isRounded_zero (s : Sign) : IsRounded 0 (pack (.zero s)) :=
  ⟨0, -1074, ⟨le_rfl, by simpa using (unit_pos _).le, by simpa using unit_pos _, .inr rfl⟩,
    by simpa using holds_zero s⟩

/-- **What is packed already is rounded to itself.** -/
theorem IsProper.isRounded {u : UnpackedFloat} (h : IsProper u) :
    IsRounded (valueOfParts u) (pack u) := by
  obtain ⟨hfinite, hpacked⟩ := h
  cases u with
  | notANumber | infinity s => cases hfinite
  | zero s => simpa using isRounded_zero s
  | finite s m e hm =>
      have hcanonical := hpacked s m e hm rfl
      have hround := roundWithAccuracy_zeros s hm hcanonical 0
      have hself := isRounded_of_locates s (Locates.exact m) (hcanonical.full.imp_right (·.le))
      rw [Nat.pow_zero, Nat.mul_one, Int.natCast_zero, Int.sub_zero] at hround
      rwa [hround, ← valueOfParts_finite s hm] at hself

/-! ### Sums and differences -/

/-- A mantissa has enough bits once it is shifted far enough. -/
theorem two_pow_le_shifted {m j k : ℕ} (hm : m ≠ 0) (h : j ≤ m.log2 + k) : 2 ^ j ≤ m * 2 ^ k :=
  calc 2 ^ j ≤ 2 ^ (m.log2 + k) := Nat.pow_le_pow_right (by norm_num) h
    _ = 2 ^ m.log2 * 2 ^ k := Nat.pow_add _ _ _
    _ ≤ m * 2 ^ k := Nat.mul_le_mul_right _ (Nat.log2_self_le hm)

/-- A mantissa of any length is rounded. -/
theorem isRounded_round (s : Sign) {m : ℕ} (hm : m ≠ 0) (e : ℤ) :
    IsRounded (oneOfSign s * (m * unit e)) (pack (UnpackedFloat.round .binary64 s m e)) := by
  have htarget : Format.binary64.targetExponent (totalExponent m e) =
      max (m.log2 + 1 + e - 53) (-1074) := by
    simp only [Format.targetExponent, totalExponent, Format.mantissaBits, Format.minExponent]
    omega
  simp only [UnpackedFloat.round, UnpackedFloat.decreaseExponent, htarget, Nat.shiftLeft_eq]
  generalize hk : (e - max (m.log2 + 1 + e - 53) (-1074)).toNat = k
  have hunits : (m : ℝ) * unit e = ((m * 2 ^ k : ℕ) : ℝ) * unit (e - k) := by
    rw [mul_unit_eq _ (by omega : e - k ≤ e), sub_sub_cancel, Int.toNat_natCast]
    push_cast
    rfl
  rw [hunits]
  refine isRounded_of_locates s (Locates.exact _) ?_
  rcases Int.lt_or_le (-1074) (e - k) with hlt | hle
  · exact .inl (two_pow_le_shifted hm (by omega))
  · exact .inr hle

/-- A whole number of units is rounded. -/
theorem isRounded_normalize (n : ℤ) (e : ℤ) (s : Sign) :
    IsRounded (n * unit e) (pack (UnpackedFloat.normalize .binary64 n e s)) := by
  unfold UnpackedFloat.normalize
  split
  · rename_i h
    have hneg := Int.compare_eq_lt.mp h
    have hcast : (n : ℝ) = -((-n).toNat : ℝ) := by
      have : n = -((-n).toNat : ℤ) := by omega
      exact_mod_cast this
    have hround := isRounded_round .negative (m := (-n).toNat) (by omega) e
    rwa [oneOfSign_negative, neg_mul, MulOneClass.one_mul, ← neg_mul, ← hcast] at hround
  · rename_i h
    rw [Int.compare_eq_eq.mp h, Int.cast_zero, zero_mul]
    exact isRounded_zero s
  · rename_i h
    have hpos := Int.compare_eq_gt.mp h
    have hcast : (n : ℝ) = (n.toNat : ℝ) := by
      have : n = (n.toNat : ℤ) := by omega
      exact_mod_cast this
    have hround := isRounded_round .positive (m := n.toNat) (by omega) e
    rwa [oneOfSign_positive, MulOneClass.one_mul, ← hcast] at hround

/-- A mantissa written in smaller units. -/
theorem decreaseExponent_eq (m : ℕ) {e f : ℤ} (h : f ≤ e) :
    ((UnpackedFloat.decreaseExponent m e f).1 : ℝ) * unit f = m * unit e := by
  rw [mul_unit_eq _ h]
  simp only [UnpackedFloat.decreaseExponent, Nat.shiftLeft_eq]
  push_cast
  rfl

/-- **The sum of parts is rounded.** -/
theorem IsProper.isRounded_add {u v : UnpackedFloat} (hu : IsProper u) (hv : IsProper v) :
    IsRounded (valueOfParts u + valueOfParts v) (pack (UnpackedFloat.add .binary64 u v)) := by
  rcases u with _ | _ | s | ⟨s, m, e, hm⟩ <;> rcases v with _ | _ | t | ⟨t, n, f, hn⟩
  case zero.zero =>
      simp only [UnpackedFloat.add, valueOfParts_zero, Rat.cast_zero, add_zero]
      split
      · exact isRounded_zero s
      · exact isRounded_zero .positive
  case zero.finite =>
      rw [valueOfParts_zero, Rat.cast_zero, zero_add]
      exact hv.isRounded
  case finite.zero =>
      rw [valueOfParts_zero, Rat.cast_zero, add_zero]
      exact hu.isRounded
  case finite.finite =>
      have hm := decreaseExponent_eq m (min_le_left e f)
      have hn := decreaseExponent_eq n (min_le_right e f)
      have hround := isRounded_normalize
        (s.apply (UnpackedFloat.decreaseExponent m e (min e f)).1 +
          t.apply (UnpackedFloat.decreaseExponent n f (min e f)).1) (min e f) .positive
      rwa [Int.cast_add, apply_eq, apply_eq, add_mul, mul_assoc, hm, mul_assoc, hn,
        ← valueOfParts_finite, ← valueOfParts_finite] at hround
  all_goals first
    | exact absurd hu.finite Bool.false_ne_true
    | exact absurd hv.finite Bool.false_ne_true

/-- To subtract is to add what is negated. -/
theorem sub_parts_eq (u v : UnpackedFloat) :
    UnpackedFloat.sub .binary64 u v = UnpackedFloat.add .binary64 u v.neg := by
  rcases u with _ | _ | s | ⟨s, m, e, hm⟩ <;> rcases v with _ | _ | t | ⟨t, n, f, hn⟩ <;>
    try rfl
  simp only [UnpackedFloat.sub, UnpackedFloat.add, UnpackedFloat.neg]
  congr 1
  cases t with
  | positive => exact Int.sub_eq_add_neg
  | negative => exact Int.sub_neg _ _

section Operations

variable {x y : Float} (hx : x.isFinite = true) (hy : y.isFinite = true)
include hx hy

theorem isRounded_add : IsRounded (value x + value y) (x + y) :=
  (isProper_parts hx).isRounded_add (isProper_parts hy)

theorem isRounded_sub : IsRounded (value x - value y) (x - y) := by
  have hrounded := (isProper_parts hx).isRounded_add (isProper_parts hy).neg
  rw [valueOfParts_neg (isProper_parts hy).finite, ← sub_parts_eq, ← sub_eq_add_neg] at hrounded
  exact hrounded

theorem isRounded_mul : IsRounded (value x * value y) (x * y) := by
  change IsRounded (valueOfParts (parts x) * valueOfParts (parts y))
    (pack (UnpackedFloat.mul .binary64 (parts x) (parts y)))
  have hu := isProper_parts hx
  have hv := isProper_parts hy
  generalize parts x = u, parts y = v at hu hv ⊢
  rcases u with _ | _ | s | ⟨s, m, e, hm⟩ <;> rcases v with _ | _ | t | ⟨t, n, f, hn⟩
  case finite.finite =>
      have hcm := hu.packed s m e hm rfl
      have hcn := hv.packed t n f hn rfl
      have hunits : oneOfSign (s * t) * (((m * n : ℕ) : ℝ) * unit (e + f)) =
          oneOfSign s * (m * unit e) * (oneOfSign t * (n * unit f)) := by
        rw [oneOfSign_mul, unit_add]
        push_cast
        ring
      rw [valueOfParts_finite, valueOfParts_finite, ← hunits]
      refine isRounded_of_locates _ (Locates.exact _) ?_
      rcases hcm.full with hfull | rfl
      · exact .inl (hfull.trans (Nat.le_mul_of_pos_right m hn))
      rcases hcn.full with hfull | rfl
      · exact .inl (hfull.trans (Nat.le_mul_of_pos_left n hm))
      · exact .inr (by norm_num)
  case zero.zero | zero.finite | finite.zero =>
      simpa [UnpackedFloat.mul] using isRounded_zero _
  all_goals first
    | exact absurd hu.finite Bool.false_ne_true
    | exact absurd hv.finite Bool.false_ne_true

end Operations

/-! ### Quotients -/

/-- A quotient with the remainder locates what is divided. -/
theorem locates_accuracyOfFraction (q : ℕ) {num den : ℕ} (h : num < den) :
    Locates (.ofMantissaAndAccuracy q (UnpackedFloat.accuracyOfFraction num den))
      (q + num / den) := by
  have hden : (0 : ℝ) < den := by exact_mod_cast Nat.zero_lt_of_lt h
  have hlt : (num : ℝ) < den := by exact_mod_cast h
  unfold UnpackedFloat.accuracyOfFraction
  split_ifs with hzero
  · rw [hzero, Nat.cast_zero, zero_div, add_zero]
    exact Locates.exact q
  have hpos : (0 : ℝ) < num := by exact_mod_cast Nat.pos_of_ne_zero hzero
  rcases lt_trichotomy (2 * num) den with hlow | hhalf | hhigh
  · rw [Nat.compare_eq_lt.mpr hlow]
    have hlow : (2 * num : ℝ) < den := by exact_mod_cast hlow
    refine .below (lt_add_of_pos_right _ (by positivity)) (add_lt_add_right ?_ _)
    rw [div_lt_div_iff₀ hden two_pos]
    linarith
  · rw [Nat.compare_eq_eq.mpr hhalf]
    have hhalf : (2 * num : ℝ) = den := by exact_mod_cast hhalf
    refine .between (congrArg _ ?_)
    rw [div_eq_div_iff hden.ne' two_ne_zero]
    linarith
  · rw [Nat.compare_eq_gt.mpr hhigh]
    have hhigh : (den : ℝ) < 2 * num := by exact_mod_cast hhigh
    refine .above (add_lt_add_right ?_ _) (add_lt_add_right ((div_lt_one hden).mpr hlt) _)
    rw [div_lt_div_iff₀ two_pos hden]
    linarith

/-- A mantissa is shifted far enough before it is divided. -/
theorem bits_of_divCore {m n : ℕ} (hm : 0 < m) (hn : 0 < n) (e f : ℤ) :
    2 ^ 52 ≤ (UnpackedFloat.divCore .binary64 m e n f).1 ∨
      (UnpackedFloat.divCore .binary64 m e n f).2.1 ≤ -1074 := by
  simp only [UnpackedFloat.divCore, Format.targetExponent, totalExponent, Format.mantissaBits,
    Format.minExponent, Nat.shiftLeft_eq]
  generalize ht : min (e - f) _ = t
  rcases Int.lt_or_le (-1074) t with hlt | hle
  · left
    rw [Nat.le_div_iff_mul_le hn]
    calc 2 ^ 52 * n ≤ 2 ^ 52 * 2 ^ (n.log2 + 1) := Nat.mul_le_mul_left _ Nat.lt_log2_self.le
      _ = 2 ^ (52 + (n.log2 + 1)) := (Nat.pow_add _ _ _).symm
      _ ≤ m * 2 ^ (e - f - t).toNat := two_pow_le_shifted (Nat.ne_of_gt hm) (by omega)
  · exact .inr hle

/-- **The quotient of mantissas** is located. -/
theorem locates_divCore (m : ℕ) {n : ℕ} (hn : 0 < n) (e f : ℤ) :
    ∃ q, Locates (.ofMantissaAndAccuracy (UnpackedFloat.divCore .binary64 m e n f).1
        (UnpackedFloat.divCore .binary64 m e n f).2.2) q ∧
      q * unit (UnpackedFloat.divCore .binary64 m e n f).2.1 = m * unit e / (n * unit f) := by
  simp only [UnpackedFloat.divCore]
  generalize ht : min (e - f) _ = t
  refine ⟨_, locates_accuracyOfFraction _ (Nat.mod_lt _ hn), ?_⟩
  have hden : (0 : ℝ) < n := by exact_mod_cast hn
  have hdivided : (m * 2 ^ (e - f - t).toNat : ℝ) =
      n * ((m <<< (e - f - t).toNat / n : ℕ) : ℝ) + ((m <<< (e - f - t).toNat % n : ℕ) : ℝ) := by
    rw [Nat.shiftLeft_eq]
    exact_mod_cast (Nat.div_add_mod _ n).symm
  have hunits : unit e = 2 ^ (e - f - t).toNat * unit t * unit f := by
    rw [← unit_natCast, ← unit_add, ← unit_add]
    congr 1
    omega
  have hunit := unit_pos f
  rw [eq_div_iff (by positivity), hunits]
  field_simp
  linear_combination -(unit t) * hdivided

theorem isRounded_div {x y : Float} (hx : x.isFinite = true) (hy : y.isFinite = true)
    (hzero : value y ≠ 0) : IsRounded (value x / value y) (x / y) := by
  have hu := isProper_parts hx
  have hv := isProper_parts hy
  change valueOfParts (parts y) ≠ 0 at hzero
  change IsRounded (valueOfParts (parts x) / valueOfParts (parts y))
    (pack (UnpackedFloat.div .binary64 (parts x) (parts y)))
  generalize parts x = u, parts y = v at *
  rcases u with _ | _ | s | ⟨s, m, e, hm⟩ <;> rcases v with _ | _ | t | ⟨t, n, f, hn⟩
  case finite.finite =>
      obtain ⟨q, hlocates, hq⟩ := locates_divCore m hn e f
      have hround := isRounded_of_locates (s / t) hlocates (bits_of_divCore hm hn e f)
      rwa [hq, oneOfSign_div, div_mul_div_comm, ← valueOfParts_finite, ← valueOfParts_finite]
        at hround
  case zero.finite =>
      rw [valueOfParts_zero, Rat.cast_zero, zero_div]
      exact isRounded_zero _
  case zero.zero | finite.zero => exact absurd rfl hzero
  all_goals first
    | exact absurd hu.finite Bool.false_ne_true
    | exact absurd hv.finite Bool.false_ne_true

/-! ### Square roots -/

/-- A whole root with the remainder locates the root. -/
theorem locates_sqrt (n : ℕ) :
    Locates (.ofMantissaAndAccuracy n.sqrt
      (if n - n.sqrt * n.sqrt = 0 then .exact
        else .inexact (if n - n.sqrt * n.sqrt ≤ n.sqrt then .lt else .gt))) √n := by
  have hlow := Nat.sqrt_le n
  have hhigh := Nat.lt_succ_sqrt n
  generalize n.sqrt = r at *
  have hr : (0 : ℝ) ≤ r := Nat.cast_nonneg r
  split_ifs with hexact hhalf
  · have hn : n = r * r := by omega
    rw [hn, Nat.cast_mul, Real.sqrt_mul_self hr]
    exact Locates.exact r
  · -- the root is less than half a unit above
    have hmore : (r : ℝ) < √n := by
      refine Real.lt_sqrt_of_sq_lt ?_
      rw [sq]
      exact_mod_cast (by omega : r * r < n)
    have hless : √n < r + 1 / 2 := by
      refine (Real.sqrt_lt' (by positivity)).mpr ?_
      have : (n : ℝ) ≤ r * r + r := by exact_mod_cast (by omega : n ≤ r * r + r)
      linarith
    exact .below hmore hless
  · have hmore : r + 1 / 2 < √n := by
      refine Real.lt_sqrt_of_sq_lt ?_
      have : (r * r + r + 1 : ℝ) ≤ n := by exact_mod_cast (by omega : r * r + r + 1 ≤ n)
      linarith
    have hless : √n < r + 1 := by
      refine (Real.sqrt_lt' (by positivity)).mpr ?_
      have : (n : ℝ) < (r + 1) * (r + 1) := by exact_mod_cast hhigh
      linarith
    exact .above hmore hless

/-- A mantissa is shifted far enough before its root is taken. -/
theorem bits_of_sqrtCore {m : ℕ} (hm : 0 < m) (e : ℤ) :
    2 ^ 52 ≤ (UnpackedFloat.sqrtCore .binary64 m e).1 ∨
      (UnpackedFloat.sqrtCore .binary64 m e).2.1 ≤ -1074 := by
  simp only [UnpackedFloat.sqrtCore, Format.targetExponent, totalExponent, Format.mantissaBits,
    Format.minExponent, Nat.shiftLeft_eq]
  generalize ht : min (e.ediv 2) _ = t
  rcases Int.lt_or_le (-1074) t with hlt | hle
  · left
    rw [Nat.le_sqrt]
    have hshift : 104 ≤ m.log2 + (e - 2 * t).toNat := by
      have hediv (a : ℤ) : a.ediv 2 = a / 2 := rfl
      simp only [hediv] at ht
      omega
    exact two_pow_le_shifted (Nat.ne_of_gt hm) hshift
  · exact .inr hle

/-- **The root of a mantissa** is located. -/
theorem locates_sqrtCore (m : ℕ) (e : ℤ) :
    ∃ q, Locates (.ofMantissaAndAccuracy (UnpackedFloat.sqrtCore .binary64 m e).1
        (UnpackedFloat.sqrtCore .binary64 m e).2.2) q ∧
      q * unit (UnpackedFloat.sqrtCore .binary64 m e).2.1 = √(m * unit e) := by
  simp only [UnpackedFloat.sqrtCore]
  have hmin : min (e.ediv 2)
      (Format.binary64.targetExponent ((totalExponent m e + 1).ediv 2)) ≤ e / 2 := min_le_left _ _
  generalize min (e.ediv 2) _ = t at hmin
  refine ⟨_, locates_sqrt _, ?_⟩
  have hunits : (m : ℝ) * unit e = ((m <<< (e - 2 * t).toNat : ℕ) : ℝ) * unit t ^ 2 := by
    rw [mul_unit_eq _ (by omega : 2 * t ≤ e), Nat.shiftLeft_eq, two_mul, unit_add, ← sq]
    push_cast
    rfl
  rw [hunits, Real.sqrt_mul' _ (sq_nonneg _), Real.sqrt_sq (unit_pos t).le]

/-- **The square root is rounded.** -/
theorem isRounded_sqrt {x : Float} (hx : x.isFinite = true) (hsign : 0 ≤ value x) :
    IsRounded √(value x) x.sqrt := by
  have hu := isProper_parts hx
  change 0 ≤ valueOfParts (parts x) at hsign
  change IsRounded √(valueOfParts (parts x)) (pack (UnpackedFloat.sqrt .binary64 (parts x)))
  generalize parts x = u at *
  rcases u with _ | _ | s | ⟨_ | _, m, e, hm⟩
  case finite.negative => exact absurd (valueOfParts_negative_lt hm) (not_lt.mpr hsign)
  case finite.positive =>
      obtain ⟨q, hlocates, hq⟩ := locates_sqrtCore m e
      have hround := isRounded_of_locates .positive hlocates (bits_of_sqrtCore hm e)
      rwa [hq, oneOfSign_positive, MulOneClass.one_mul, ← MulOneClass.one_mul (m * unit e : ℝ),
        ← oneOfSign_positive, ← valueOfParts_finite .positive hm] at hround
  case zero =>
      rw [valueOfParts_zero, Rat.cast_zero, Real.sqrt_zero]
      exact isRounded_zero s
  all_goals exact absurd hu.finite Bool.false_ne_true

/-! ### Natural numbers -/

/-- **A natural number is rounded** when it becomes a double. -/
theorem isRounded_ofNat (n : ℕ) : IsRounded n (Float.ofNat n) := by
  rcases Nat.lt_or_ge n (2 ^ 53) with hfew | hmany
  · have hfinite : (Float.ofNat n).isFinite = true := by
      rcases Nat.eq_zero_or_pos n with rfl | hpos
      · rfl
      · obtain ⟨hm, hparts⟩ := parts_ofNat hpos hfew
        change (parts (Float.ofNat n)).isFinite = true
        rw [hparts]
        rfl
    have hself := (isProper_parts hfinite).isRounded
    rw [pack_parts] at hself
    have hvalue := value_ofNat hfew
    rw [value] at hvalue
    rwa [hvalue, Rat.cast_natCast] at hself
  · have hbits : 2 ^ 52 ≤ n * 2 ^ 53 := by omega
    have hround := isRounded_of_locates .positive (e := -53) (Locates.exact _) (.inl hbits)
    have hunits : ((n * 2 ^ 53 : ℕ) : ℝ) * unit (-53) = n := by
      have hinv : unit (-53) * 2 ^ 53 = 1 := by
        rw [← unit_natCast, ← unit_add, ← unit_zero]
        norm_num
      push_cast
      linear_combination (n : ℝ) * hinv
    rwa [hunits, oneOfSign_positive, MulOneClass.one_mul, ← ofNat_of_le hmany] at hround

end TrafficWatch.Double
