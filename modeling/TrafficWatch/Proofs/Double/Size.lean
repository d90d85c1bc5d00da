import TrafficWatch.Proofs.Double.Arithmetic
import TrafficWatch.Proofs.Double.Finite

/-!
# Double — Size

How great and how small the results of the operations can be, in powers of two.  A double stays within
a bound (`Within`), or it is a number that is not below a bound and may be infinite (`AtLeast`).  Each
operation has a rule for either.  However many doubles are added, the sum of doubles within a bound
stays within one that depends on the bound alone (`Within.foldl_add`): what is added to it in the end is
rounded away.
-/

namespace TrafficWatch.Double

open Float.Model (UnpackedFloat)
open Float.Model.UnpackedFloat (Sign)

/-- A finite double that is not farther from zero than a power of two. -/
structure Within (k : ℤ) (x : Float) : Prop where
  finite : x.isFinite = true
  le : |(value x : ℝ)| ≤ unit k

/-- A double that is not below a bound, or is infinite. -/
inductive AtLeast (b : ℝ) (x : Float) : Prop
  | infinite (h : parts x = .infinity .positive)
  | finite (h : x.isFinite = true) (hle : b ≤ value x)

/-! ### What is rounded -/

section Rounded

variable {v b : ℝ} {x : Float} {k : ℤ}

theorem abs_oneOfSign_mul (s : Sign) (w : ℝ) : |oneOfSign s * w| = |w| := by
  cases s <;> simp

/-- What is rounded and ends within a bound has a value. -/
theorem Holds.within (h : Holds v x) (hv : |v| ≤ unit k) (hk : k ≤ 1023) : Within k x := by
  cases h with
  | finite hfinite hvalue => exact ⟨hfinite, hvalue ▸ hv⟩
  | infinite s _ hlarge =>
      have hle : unit 1024 ≤ unit k :=
        hlarge.trans (le_abs_self _ |>.trans (abs_oneOfSign_mul s v ▸ hv))
      exact absurd (unit_le_iff.mp hle) (by omega)

/-- What is small enough before it is rounded is so afterwards. -/
theorem IsRounded.within (h : IsRounded v x) (hv : |v| ≤ unit k) (hlow : -1074 ≤ k)
    (hhigh : k ≤ 1023) : Within k x := by
  obtain ⟨r, t, hrounds, hholds⟩ := h
  exact hholds.within (hrounds.abs_le_of_abs_le (isShort_unit hlow) hv) hhigh

/-- What is great enough before it is rounded is so afterwards. -/
theorem IsRounded.atLeast (h : IsRounded v x) (hb : IsShort b) (hnonneg : 0 ≤ b) (hv : b ≤ v) :
    AtLeast b x := by
  obtain ⟨r, t, hrounds, hholds⟩ := h
  have hle := hrounds.ge_of_ge hb hv
  cases hholds with
  | finite hfinite hvalue => exact .finite hfinite (hvalue ▸ hle)
  | infinite s hinfinite hlarge =>
      cases s with
      | positive => exact .infinite hinfinite
      | negative =>
          have hpos := unit_pos 1024
          rw [oneOfSign_negative] at hlarge
          linarith

theorem IsRounded.isNaN_eq_false (h : IsRounded v x) : x.isNaN = false := by
  obtain ⟨r, t, -, hholds⟩ := h
  cases hholds with
  | finite hfinite hvalue => exact isNaN_of_isFinite hfinite
  | infinite s hinfinite hlarge =>
      change (parts x).isNaN = false
      rw [hinfinite]
      rfl

/-- What is not smaller than the least unit is not rounded to zero. -/
theorem IsRounded.value_ne_zero (h : IsRounded v x) (hx : x.isFinite = true)
    (hv : unit (-1074) ≤ |v|) : value x ≠ 0 := by
  obtain ⟨r, t, hrounds, hholds⟩ := h
  have hle := hrounds.le_abs_of_le_abs (isShort_unit le_rfl) hv
  intro hzero
  cases hholds with
  | finite hfinite hvalue =>
      rw [← hvalue, hzero, Rat.cast_zero, abs_zero] at hle
      exact absurd hle (not_le.mpr (unit_pos _))
  | infinite s hinfinite hlarge =>
      change (parts x).isFinite = true at hx
      rw [hinfinite] at hx
      cases hx

/-- Only zero is nearer to zero than the least unit. -/
theorem le_abs_value (hx : x.isFinite = true) (hzero : value x ≠ 0) :
    unit (-1074) ≤ |(value x : ℝ)| := by
  have hproper := isProper_parts hx
  change valueOfParts (parts x) ≠ 0 at hzero
  change unit (-1074) ≤ |(valueOfParts (parts x) : ℝ)|
  generalize parts x = u at *
  rcases u with _ | _ | s | ⟨s, m, e, hm⟩
  case finite =>
      have hcanonical := hproper.packed s m e hm rfl
      rw [valueOfParts_finite, abs_oneOfSign_mul, abs_of_nonneg (by have := unit_pos e; positivity)]
      calc unit (-1074) ≤ unit e := unit_le_iff.mpr hcanonical.least
        _ ≤ m * unit e := le_mul_of_one_le_left (unit_pos e).le (by exact_mod_cast hm)
  all_goals exact absurd rfl hzero

theorem isShort_value (hx : x.isFinite = true) : IsShort (value x) ∧ |(value x : ℝ)| < unit 1024 := by
  have hproper := isProper_parts hx
  change IsShort (valueOfParts (parts x)) ∧ |(valueOfParts (parts x) : ℝ)| < unit 1024
  generalize parts x = u at *
  rcases u with _ | _ | s | ⟨s, m, e, hm⟩
  case finite =>
      have hcanonical := hproper.packed s m e hm rfl
      rw [valueOfParts_finite]
      refine ⟨⟨s.apply m, e, by rw [apply_eq, mul_assoc], ?_, hcanonical.least⟩, ?_⟩
      · have habs : |s.apply (m : ℤ)| = m := by cases s <;> simp [Sign.apply]
        rw [habs]
        exact_mod_cast hcanonical.lt.le
      · rw [abs_oneOfSign_mul, abs_of_nonneg (by have := unit_pos e; positivity)]
        calc (m : ℝ) * unit e < unit 53 * unit e := by
              rw [unit_ofNat]
              exact mul_lt_mul_of_pos_right (by exact_mod_cast hcanonical.lt) (unit_pos e)
          _ = unit (53 + e) := (unit_add _ _).symm
          _ ≤ unit 1024 := unit_le_iff.mpr (by have := hcanonical.greatest; omega)
  all_goals
    rw [valueOfParts, Rat.cast_zero, abs_zero]
    exact ⟨isShort_zero, unit_pos _⟩

/-- **The value of a double is rounded to itself.** -/
theorem IsRounded.value_eq {y : Float} (h : IsRounded (value x) y) (hx : x.isFinite = true) :
    y.isFinite = true ∧ value y = value x := by
  obtain ⟨r, t, hrounds, hholds⟩ := h
  obtain ⟨hshort, hlt⟩ := isShort_value hx
  have heq := le_antisymm (hrounds.le_of_le hshort le_rfl) (hrounds.ge_of_ge hshort le_rfl)
  cases hholds with
  | finite hfinite hvalue => exact ⟨hfinite, by exact_mod_cast hvalue.trans heq⟩
  | infinite s hinfinite hlarge =>
      rw [heq] at hlarge
      exact absurd (hlarge.trans (le_abs_self _ |>.trans_eq (abs_oneOfSign_mul s _)))
        (not_le.mpr hlt)

/-- **How far the value is from what was rounded.** -/
theorem IsRounded.error_le (h : IsRounded v x) (hx : x.isFinite = true) :
    |value x - v| ≤ unit (-53) * |v| + unit (-1075) := by
  obtain ⟨r, t, hrounds, hholds⟩ := h
  cases hholds with
  | finite hfinite hvalue => exact hvalue ▸ hrounds.error_le
  | infinite s hinfinite hlarge =>
      change (parts x).isFinite = true at hx
      rw [hinfinite] at hx
      cases hx

/-- **Rounding errs no more than by the distance to any double.**  What is not far enough away to be
infinite has a value. -/
theorem IsRounded.near_value {z : Float} (h : IsRounded v x) (hz : z.isFinite = true)
    (hsmall : |v| + |v - value z| < unit 1024) :
    x.isFinite = true ∧ |value x - v| ≤ |v - value z| := by
  obtain ⟨r, t, hrounds, hholds⟩ := h
  have hnear := hrounds.near_of_isShort (isShort_value hz).1
  rw [abs_sub_comm] at hnear
  cases hholds with
  | finite hfinite hvalue => exact ⟨hfinite, hvalue ▸ hnear⟩
  | infinite s hinfinite hlarge =>
      have hle : unit 1024 ≤ |r * unit t| :=
        hlarge.trans (le_abs_self _ |>.trans_eq (abs_oneOfSign_mul s _))
      have htriangle := abs_sub_abs_le_abs_sub (r * unit t) v
      linarith

end Rounded

/-! ### Numbers -/

section Numbers

variable {x y : Float}

theorem isNaN_pack (u : UnpackedFloat) : (pack u).isNaN = u.isNaN := by
  rw [isNaN_eq, sign?_pack]
  cases u <;> rfl

/-- A number that is not finite is infinite. -/
theorem exists_infinity (hnumber : x.isNaN = false) (h : x.isFinite = false) :
    ∃ s, parts x = .infinity s := by
  change (parts x).isNaN = false at hnumber
  change (parts x).isFinite = false at h
  cases hparts : parts x with
  | infinity s => exact ⟨s, rfl⟩
  | notANumber => rw [hparts] at hnumber; cases hnumber
  | zero s | finite s m e hm => rw [hparts] at h; cases h

/-! An infinity stays one when something finite is added to it or divides it, and leaves zero when it
divides something finite. -/

theorem infinity_add (s : Sign) {v : UnpackedFloat} (hv : v.isFinite = true) :
    UnpackedFloat.add .binary64 (.infinity s) v = .infinity s := by
  cases v with
  | notANumber | infinity t => cases hv
  | zero t | finite t n f hn => rfl

theorem add_infinity (s : Sign) {u : UnpackedFloat} (hu : u.isFinite = true) :
    UnpackedFloat.add .binary64 u (.infinity s) = .infinity s := by
  cases u with
  | notANumber | infinity t => cases hu
  | zero t | finite t n f hn => rfl

theorem infinity_div (s : Sign) {v : UnpackedFloat} (hv : v.isFinite = true) :
    ∃ t, UnpackedFloat.div .binary64 (.infinity s) v = .infinity t := by
  cases v with
  | notANumber | infinity t => cases hv
  | zero t | finite t n f hn => exact ⟨_, rfl⟩

theorem div_infinity (s : Sign) {u : UnpackedFloat} (hu : u.isFinite = true) :
    ∃ t, UnpackedFloat.div .binary64 u (.infinity s) = .zero t := by
  cases u with
  | notANumber | infinity t => cases hu
  | zero t | finite t n f hn => exact ⟨_, rfl⟩

/-- A number remains one when something finite is added. -/
theorem isNaN_add (hx : x.isNaN = false) (hy : y.isFinite = true) : (x + y).isNaN = false := by
  cases hfinite : x.isFinite with
  | true => exact (isRounded_add hfinite hy).isNaN_eq_false
  | false =>
      obtain ⟨s, hparts⟩ := exists_infinity hx hfinite
      change (pack (UnpackedFloat.add .binary64 (parts x) (parts y))).isNaN = false
      rw [isNaN_pack, hparts, infinity_add s (isProper_parts hy).finite]
      rfl

/-- A number is subtracted from something finite. -/
theorem isNaN_sub (hx : x.isFinite = true) (hy : y.isNaN = false) : (x - y).isNaN = false := by
  cases hfinite : y.isFinite with
  | true => exact (isRounded_sub hx hfinite).isNaN_eq_false
  | false =>
      obtain ⟨s, hparts⟩ := exists_infinity hy hfinite
      change (pack (UnpackedFloat.sub .binary64 (parts x) (parts y))).isNaN = false
      rw [isNaN_pack, hparts, sub_parts_eq, UnpackedFloat.neg,
        add_infinity _ (isProper_parts hx).finite]
      rfl

/-- A number is divided by something finite other than zero. -/
theorem isNaN_div (hx : x.isNaN = false) (hy : y.isFinite = true) (hzero : value y ≠ 0) :
    (x / y).isNaN = false := by
  cases hfinite : x.isFinite with
  | true => exact (isRounded_div hfinite hy hzero).isNaN_eq_false
  | false =>
      obtain ⟨s, hparts⟩ := exists_infinity hx hfinite
      obtain ⟨t, hquotient⟩ := infinity_div s (isProper_parts hy).finite
      change (pack (UnpackedFloat.div .binary64 (parts x) (parts y))).isNaN = false
      rw [isNaN_pack, hparts, hquotient]
      rfl

/-- What has a finite root is finite. -/
theorem isFinite_of_sqrt (h : x.sqrt.isFinite = true) : x.isFinite = true := by
  change (pack (UnpackedFloat.sqrt .binary64 (parts x))).isFinite = true at h
  change (parts x).isFinite = true
  have hroot := isFinite_of_pack h
  generalize parts x = u at *
  rcases u with (_ | _) | _ | _ | _
  all_goals first
    | rfl
    | exact absurd hroot Bool.false_ne_true

end Numbers

/-! ### Within a bound -/

namespace Within

variable {x y : Float} {k l : ℤ}

theorem mono (h : Within k x) (hkl : k ≤ l) : Within l x :=
  ⟨h.finite, h.le.trans (unit_le_iff.mpr hkl)⟩

theorem add (hx : Within k x) (hy : Within k y) (hlow : -1075 ≤ k) (hhigh : k ≤ 1022) :
    Within (k + 1) (x + y) := by
  refine (isRounded_add hx.finite hy.finite).within ?_ (by omega) (by omega)
  rw [unit_add_one, two_mul]
  exact (abs_add_le _ _).trans (add_le_add hx.le hy.le)

theorem sub (hx : Within k x) (hy : Within k y) (hlow : -1075 ≤ k) (hhigh : k ≤ 1022) :
    Within (k + 1) (x - y) := by
  refine (isRounded_sub hx.finite hy.finite).within ?_ (by omega) (by omega)
  rw [unit_add_one, two_mul]
  exact (abs_sub _ _).trans (add_le_add hx.le hy.le)

theorem mul (hx : Within k x) (hy : Within l y) (hlow : -1074 ≤ k + l) (hhigh : k + l ≤ 1023) :
    Within (k + l) (x * y) := by
  refine (isRounded_mul hx.finite hy.finite).within ?_ hlow hhigh
  rw [abs_mul, unit_add]
  exact mul_le_mul hx.le hy.le (abs_nonneg _) (unit_pos k).le

theorem div (hx : Within k x) (hy : AtLeast (unit l) y) (hlow : -1074 ≤ k - l)
    (hhigh : k - l ≤ 1023) : Within (k - l) (x / y) := by
  cases hy with
  | infinite hinfinite =>
      obtain ⟨s, hquotient⟩ := div_infinity .positive (isProper_parts hx.finite).finite
      have hzero : x / y = pack (.zero s) := by
        change pack (UnpackedFloat.div .binary64 (parts x) (parts y)) = _
        rw [hinfinite, hquotient]
      rw [hzero]
      exact (isRounded_zero s).within (by simpa using (unit_pos _).le) hlow hhigh
  | finite hfinite hle =>
      have hpos := unit_pos l
      have hpositive : (0 : ℝ) < value y := hpos.trans_le hle
      refine (isRounded_div hx.finite hfinite (by exact_mod_cast hpositive.ne')).within ?_ hlow hhigh
      rw [abs_div, abs_of_pos hpositive, div_le_iff₀ hpositive]
      calc |(value x : ℝ)| ≤ unit k := hx.le
        _ = unit (k - l) * unit l := by rw [← unit_add, sub_add_cancel]
        _ ≤ unit (k - l) * value y := mul_le_mul_of_nonneg_left hle (unit_pos _).le

theorem sqrt (hx : Within k x) (hsign : 0 ≤ value x) (hlow : 0 ≤ k) (hhigh : k ≤ 1023) :
    Within k x.sqrt := by
  refine (isRounded_sqrt hx.finite hsign).within ?_ (by omega) hhigh
  rw [abs_of_nonneg (Real.sqrt_nonneg _), Real.sqrt_le_left (unit_pos k).le, sq]
  have hone : 1 ≤ unit k := unit_zero ▸ unit_le_iff.mpr hlow
  exact ((le_abs_self _).trans hx.le).trans (le_mul_of_one_le_left (unit_pos k).le hone)

/-- **A sum stays within a bound**, however many doubles are added. -/
theorem foldl_add {xs : List Float} {a : Float} (ha : Within (k + 54) a)
    (hxs : ∀ x ∈ xs, Within k x) (hlow : -1074 ≤ k) (hhigh : k ≤ 969) :
    Within (k + 54) (xs.foldl (· + ·) a) := by
  induction xs generalizing a with
  | nil => exact ha
  | cons x xs ih =>
      obtain ⟨hx, hxs⟩ := List.forall_mem_cons.mp hxs
      refine ih ?_ hxs
      obtain ⟨r, t, hrounds, hholds⟩ := isRounded_add ha.finite hx.finite
      refine hholds.within (hrounds.absorb hlow ?_) (by omega)
      exact (abs_add_le _ _).trans (add_le_add ha.le hx.le)

end Within

theorem within_zero (k : ℤ) : Within k 0.0 :=
  ⟨rfl, by simpa [value_zero] using (unit_pos k).le⟩

theorem within_one : Within 0 1.0 :=
  ⟨rfl, by simp [value_one, unit_zero]⟩

theorem within_neg_one : Within 0 (-1.0) := by
  have hparts : parts (-1.0) = .finite .negative (2 ^ 52) (-52) (by decide) := rfl
  refine ⟨rfl, ?_⟩
  rw [value, hparts, valueOfParts_finite, abs_oneOfSign_mul, unit_eq, unit_zero]
  norm_num

/-! ### Not below a bound -/

theorem atLeast_zero : AtLeast 0 0.0 :=
  .finite rfl (by simp [value_zero])

theorem atLeast_one : AtLeast (unit 0) 1.0 :=
  .finite rfl (by simp [value_one, unit_zero])

theorem parts_pack_zero (s : Sign) : parts (pack (.zero s)) = .zero s := by
  cases s <;> rfl

theorem parts_pack_infinity (s : Sign) : parts (pack (.infinity s)) = .infinity s := by
  cases s <;> rfl

/-- The distance of something finite from zero. -/
theorem value_abs {x : Float} (hx : x.isFinite = true) :
    x.abs.isFinite = true ∧ (value x.abs : ℝ) = |(value x : ℝ)| := by
  have hproper := isProper_parts hx
  change (pack (parts x).abs).isFinite = true ∧
    (valueOfParts (parts (pack (parts x).abs)) : ℝ) = |(valueOfParts (parts x) : ℝ)|
  generalize parts x = u at hproper
  rcases u with _ | _ | s | ⟨s, m, e, hm⟩
  case zero =>
      refine ⟨isFinite_pack_zero _, ?_⟩
      rw [UnpackedFloat.abs, parts_pack_zero, valueOfParts_zero, valueOfParts_zero, Rat.cast_zero,
        abs_zero]
  case finite =>
      have hcanonical := hproper.packed s m e hm rfl
      have hunit := unit_pos e
      refine ⟨isFinite_pack _ hm hcanonical.greatest, ?_⟩
      rw [UnpackedFloat.abs, parts_pack _ hm hcanonical, valueOfParts_finite, valueOfParts_finite,
        abs_oneOfSign_mul, oneOfSign_positive, MulOneClass.one_mul, abs_of_nonneg (by positivity)]
  all_goals cases hproper.finite

namespace AtLeast

variable {x y : Float} {a b c : ℝ}

theorem mono (h : AtLeast b x) (hc : c ≤ b) : AtLeast c x := by
  cases h with
  | infinite h => exact .infinite h
  | finite h hle => exact .finite h (hc.trans hle)

/-- What is not below a bound and finite has a value there. -/
theorem le_value (h : AtLeast b x) (hx : x.isFinite = true) : b ≤ value x := by
  cases h with
  | finite _ hle => exact hle
  | infinite h =>
      change (parts x).isFinite = true at hx
      rw [h] at hx
      cases hx

/-- An infinity stays one when something that is not negative is added. -/
theorem add_eq_infinity {u v : UnpackedFloat} (hu : u = .infinity .positive ∨ u.isFinite = true)
    (hv : v = .infinity .positive ∨ v.isFinite = true)
    (h : u = .infinity .positive ∨ v = .infinity .positive) :
    UnpackedFloat.add .binary64 u v = .infinity .positive := by
  rcases hu with rfl | hu <;> rcases hv with rfl | hv
  · rfl
  · exact infinity_add _ hv
  · exact add_infinity _ hu
  · rcases h with rfl | rfl
    · cases hu
    · cases hv

theorem parts_eq_or (h : AtLeast b x) : parts x = .infinity .positive ∨ (parts x).isFinite = true := by
  cases h with
  | infinite h => exact .inl h
  | finite h _ => exact .inr h

/-- Sums of what is not negative. -/
theorem add (hx : AtLeast a x) (hy : AtLeast b y) (hc : IsShort c) (hnonneg : 0 ≤ c)
    (hle : c ≤ a + b) : AtLeast c (x + y) := by
  have hinfinite (h : parts x = .infinity .positive ∨ parts y = .infinity .positive) :
      AtLeast c (x + y) := by
    refine .infinite ?_
    change parts (pack (UnpackedFloat.add .binary64 (parts x) (parts y))) = _
    rw [add_eq_infinity hx.parts_eq_or hy.parts_eq_or h, parts_pack_infinity]
  cases hx with
  | infinite hx => exact hinfinite (.inl hx)
  | finite hx hax =>
      cases hy with
      | infinite hy => exact hinfinite (.inr hy)
      | finite hy hby =>
          exact (isRounded_add hx hy).atLeast hc hnonneg (hle.trans (add_le_add hax hby))

/-- Squares of numbers. -/
theorem mul_self (hx : x.isNaN = false) (hc : IsShort c) (hnonneg : 0 ≤ c)
    (hle : x.isFinite = true → c ≤ value x * value x) : AtLeast c (x * x) := by
  cases hfinite : x.isFinite with
  | true => exact (isRounded_mul hfinite hfinite).atLeast hc hnonneg (hle hfinite)
  | false =>
      obtain ⟨s, hparts⟩ := exists_infinity hx hfinite
      refine .infinite ?_
      change parts (pack (UnpackedFloat.mul .binary64 (parts x) (parts x))) = _
      rw [hparts]
      cases s <;> rfl

/-- Quotients by what is positive. -/
theorem div (hx : AtLeast a x) (hy : y.isFinite = true) (hpos : 0 < value y) (hc : IsShort c)
    (hnonneg : 0 ≤ c) (hle : c * value y ≤ a) : AtLeast c (x / y) := by
  have hpositive : (0 : ℝ) < value y := by exact_mod_cast hpos
  cases hx with
  | finite hx hax =>
      refine (isRounded_div hx hy hpos.ne').atLeast hc hnonneg ?_
      rw [le_div_iff₀ hpositive]
      exact hle.trans hax
  | infinite hx =>
      refine .infinite ?_
      change parts (pack (UnpackedFloat.div .binary64 (parts x) (parts y))) = _
      change 0 < valueOfParts (parts y) at hpos
      rw [hx]
      generalize parts y = v at *
      rcases v with _ | _ | _ | ⟨_ | _, n, f, hn⟩
      case finite.positive => exact parts_pack_infinity _
      case finite.negative => exact absurd (valueOfParts_negative_lt hn) (not_lt.mpr hpos.le)
      all_goals exact absurd hpos (lt_irrefl 0)

/-- Square roots. -/
theorem sqrt (hx : AtLeast a x) (hc : IsShort c) (hnonneg : 0 ≤ c) (hle : c * c ≤ a) :
    AtLeast c x.sqrt := by
  cases hx with
  | finite hx hax =>
      have hsign : (0 : ℝ) ≤ value x := (mul_self_nonneg c).trans (hle.trans hax)
      refine (isRounded_sqrt hx (by exact_mod_cast hsign)).atLeast hc hnonneg ?_
      exact Real.le_sqrt_of_sq_le (by rw [sq]; exact hle.trans hax)
  | infinite hx =>
      refine .infinite ?_
      change parts (pack (UnpackedFloat.sqrt .binary64 (parts x))) = _
      rw [hx]
      rfl

/-- Distances from zero. -/
theorem abs (hx : x.isNaN = false) : AtLeast 0 x.abs := by
  cases hfinite : x.isFinite with
  | true =>
      obtain ⟨habs, hvalue⟩ := value_abs hfinite
      exact .finite habs (hvalue ▸ abs_nonneg _)
  | false =>
      obtain ⟨s, hparts⟩ := exists_infinity hx hfinite
      refine .infinite ?_
      change parts (pack (parts x).abs) = _
      rw [hparts]
      exact parts_pack_infinity _

/-- What is not negative leaves a sum at least as great. -/
theorem foldl_add {xs : List Float} {a : Float} (ha : AtLeast c a) (hxs : ∀ x ∈ xs, AtLeast 0 x)
    (hc : IsShort c) (hnonneg : 0 ≤ c) : AtLeast c (xs.foldl (· + ·) a) := by
  induction xs generalizing a with
  | nil => exact ha
  | cons x xs ih =>
      obtain ⟨hx, hxs⟩ := List.forall_mem_cons.mp hxs
      exact ih (ha.add hx hc hnonneg (add_zero c).ge) hxs

/-- **A sum of what is not negative** is not below any of it. -/
theorem foldl_add_of_mem {xs : List Float} {a : Float} (ha : AtLeast 0 a)
    (hxs : ∀ x ∈ xs, AtLeast 0 x) (hmem : x ∈ xs) (hx : AtLeast c x) (hc : IsShort c)
    (hnonneg : 0 ≤ c) : AtLeast c (xs.foldl (· + ·) a) := by
  induction xs generalizing a with
  | nil => exact absurd hmem List.not_mem_nil
  | cons y ys ih =>
      obtain ⟨hy, hys⟩ := List.forall_mem_cons.mp hxs
      rcases List.mem_cons.mp hmem with rfl | hmem
      · exact (ha.add hx hc hnonneg (zero_add c).ge).foldl_add hys hc hnonneg
      · exact ih (ha.add hy isShort_zero le_rfl (add_zero 0).ge) hys hmem

end AtLeast

/-! ### Comparisons -/

section Comparisons

variable {x y : Float} {b : ℝ}

theorem AtLeast.of_le (hx : x.isFinite = true) (h : x ≤ y) : AtLeast (value x) y := by
  cases hy : y.isFinite with
  | true => exact .finite hy (by exact_mod_cast (le_iff_value hx hy).mp h)
  | false =>
      rw [le_iff] at h
      change (parts x).isFinite = true at hx
      change (parts y).isFinite = false at hy
      refine .infinite ?_
      generalize parts x = u, parts y = v at *
      rcases v with (_ | _) | _ | _ | _
      · rcases u with _ | _ | _ | ⟨_ | _, m, e, hm⟩
        · cases hx
        · cases hx
        all_goals exact absurd h Bool.false_ne_true
      · rfl
      · rcases u with _ | _ | _ | _ <;> exact absurd h Bool.false_ne_true
      · cases hy
      · cases hy

/-- What is not above something finite is finite and has a value not above. -/
theorem AtLeast.finite_of_not_lt (hy : AtLeast b y) (hx : x.isFinite = true) (h : ¬ x < y) :
    y.isFinite = true ∧ value y ≤ value x := by
  cases hy with
  | finite hy _ => exact ⟨hy, not_lt.mp (mt (lt_iff_value hx hy).mpr h)⟩
  | infinite hy =>
      rw [lt_iff, hy] at h
      change (parts x).isFinite = true at hx
      generalize parts x = u at *
      rcases u with _ | _ | _ | ⟨_ | _, m, e, hm⟩
      case zero | finite.negative | finite.positive => exact absurd rfl h
      all_goals cases hx

theorem isFinite_of_abs_le (hy : y.isFinite = true) (h : x.abs ≤ y) : x.isFinite = true := by
  rw [le_iff] at h
  change (parts x).isFinite = true
  change (parts y).isFinite = true at hy
  change ((parts (pack (parts x).abs)).compare (parts y)).any (·.isLE) = true at h
  generalize parts x = u, parts y = v at *
  rcases u with s | _ | _ | _
  · rw [UnpackedFloat.abs, parts_pack_infinity] at h
    rcases v with _ | _ | _ | ⟨_ | _, n, f, hn⟩
    · cases hy
    · cases hy
    all_goals exact absurd h Bool.false_ne_true
  · exact absurd h Bool.false_ne_true
  · rfl
  · rfl

/-- What is not farther from zero than something finite stays within its bound. -/
theorem within_of_abs_le {k : ℤ} (hy : y.isFinite = true) (h : x.abs ≤ y)
    (hk : (value y : ℝ) ≤ unit k) : Within k x := by
  have hx := isFinite_of_abs_le hy h
  obtain ⟨habs, hvalue⟩ := value_abs hx
  have hle : (value x.abs : ℝ) ≤ value y := by exact_mod_cast (le_iff_value habs hy).mp h
  exact ⟨hx, hvalue ▸ hle.trans hk⟩

end Comparisons

end TrafficWatch.Double
