import TrafficWatch.Proofs.Double.Compare
import TrafficWatch.Proofs.Double.Nearest
import TrafficWatch.Proofs.Scalar

/-!
# Double — Rounding

What rounding the parts of a double makes of a real number.  A mantissa with two further bits locates
a number (`Locates`), and goes on to do so when both are halved (`Locates.shiftRight`), so that it is
rounded to within one half (`Locates.abs_sub_roundedMantissa_le`).  Hence parts that locate a number
are rounded to the number that `RoundsTo` says, and packed into the double of that value, or into an
infinity if it is too great (`isRounded_of_locates`).
-/

namespace TrafficWatch.Double

open Float.Model (Format UnpackedFloat)
open Float.Model.UnpackedFloat (Sign Accuracy ExtendedMantissa roundWithAccuracy
  shiftToTargetExponent)

/-! ### Locating a number -/

/-- A mantissa followed by a bit and by whether there is more **locates a number**: the double of the
number is that of the mantissa, the bit and a rest. -/
structure Locates (em : ExtendedMantissa) (x : ℝ) : Prop where
  exists_rest : ∃ rest : ℝ, 0 ≤ rest ∧ rest < 1 ∧ (rest = 0 ↔ em.stickyBit = false) ∧
    x + x = em.mantissa + em.mantissa + em.roundBit.toNat + rest

theorem mantissa_ofMantissaAndAccuracy (m : ℕ) (a : Accuracy) :
    (ExtendedMantissa.ofMantissaAndAccuracy m a).mantissa = m := by
  unfold ExtendedMantissa.ofMantissaAndAccuracy
  split <;> rfl

namespace Locates

variable {em : ExtendedMantissa} {m : ℕ} {x : ℝ}

theorem exact (m : ℕ) : Locates (.ofMantissaAndAccuracy m .exact) m :=
  ⟨0, le_rfl, one_pos, iff_of_true rfl rfl, by simp [ExtendedMantissa.ofMantissaAndAccuracy]⟩

theorem below (hlow : m < x) (hhigh : x < m + 1 / 2) :
    Locates (.ofMantissaAndAccuracy m (.inexact .lt)) x := by
  refine ⟨2 * (x - m), by linarith, by linarith, iff_of_false (by linarith) ?_, ?_⟩
  · simp [ExtendedMantissa.ofMantissaAndAccuracy]
  · simp only [ExtendedMantissa.ofMantissaAndAccuracy, Bool.toNat_false]
    push_cast
    ring

theorem between (hx : x = m + 1 / 2) : Locates (.ofMantissaAndAccuracy m (.inexact .eq)) x := by
  refine ⟨0, le_rfl, one_pos, iff_of_true rfl rfl, ?_⟩
  simp only [ExtendedMantissa.ofMantissaAndAccuracy, Bool.toNat_true]
  push_cast
  linarith

theorem above (hlow : m + 1 / 2 < x) (hhigh : x < m + 1) :
    Locates (.ofMantissaAndAccuracy m (.inexact .gt)) x := by
  refine ⟨2 * (x - m) - 1, by linarith, by linarith, iff_of_false (by linarith) ?_, ?_⟩
  · simp [ExtendedMantissa.ofMantissaAndAccuracy]
  · simp only [ExtendedMantissa.ofMantissaAndAccuracy, Bool.toNat_true]
    push_cast
    ring

/-- Half of the number is located by what is shifted. -/
theorem shiftRightOne (h : Locates em x) : Locates em.shiftRightOne (x / 2) := by
  obtain ⟨m, round, sticky⟩ := em
  obtain ⟨rest, hlow, hhigh, hzero, hx⟩ := h.exists_rest
  simp only at hzero hx
  refine ⟨(round.toNat + rest) / 2, by positivity, ?_, ?_, ?_⟩
  · have : (round.toNat : ℝ) ≤ 1 := by exact_mod_cast Bool.toNat_le round
    linarith
  · cases round <;> simp [ExtendedMantissa.shiftRightOne, hzero]
    linarith
  · have hdiv : (m : ℝ) = 2 * (m / 2 : ℕ) + (m % 2 : ℕ) := by exact_mod_cast (Nat.div_add_mod m 2).symm
    have hbit : (m % 2 != 0).toNat = m % 2 := by
      rcases Nat.mod_two_eq_zero_or_one m with h | h <;> rw [h] <;> rfl
    simp only [ExtendedMantissa.shiftRightOne, hbit]
    linarith

theorem shiftRight (h : Locates em x) (k : ℕ) : Locates (em >>> k) (x / 2 ^ k) := by
  induction k with
  | zero =>
      rw [pow_zero, div_one]
      exact h
  | succ k ih =>
      have hnext := ih.shiftRightOne
      rwa [div_div, ← pow_succ] at hnext

theorem mantissa_le (h : Locates em x) : em.mantissa ≤ x := by
  obtain ⟨rest, hlow, -, -, hx⟩ := h.exists_rest
  have : (0 : ℝ) ≤ em.roundBit.toNat := Nat.cast_nonneg _
  linarith

theorem nonneg (h : Locates em x) : 0 ≤ x :=
  (Nat.cast_nonneg _).trans h.mantissa_le

theorem lt_mantissa (h : Locates em x) : x < em.mantissa + 1 := by
  obtain ⟨rest, -, hhigh, -, hx⟩ := h.exists_rest
  have : (em.roundBit.toNat : ℝ) ≤ 1 := by exact_mod_cast Bool.toNat_le em.roundBit
  linarith

/-- **The mantissa is rounded to within one half.** -/
theorem abs_sub_roundedMantissa_le (h : Locates em x) : |x - em.roundedMantissa| ≤ 1 / 2 := by
  obtain ⟨m, round, sticky⟩ := em
  obtain ⟨rest, hlow, hhigh, hzero, hx⟩ := h.exists_rest
  simp only at hzero hx
  have hparity : ((m % 2 : ℕ) : ℝ) = 0 ∨ ((m % 2 : ℕ) : ℝ) = 1 := by
    rcases Nat.mod_two_eq_zero_or_one m with h | h <;> simp [h]
  rw [abs_le]
  cases round <;> cases sticky <;>
    simp [ExtendedMantissa.roundedMantissa, ExtendedMantissa.accuracy,
      Accuracy.roundToNearestEven] at hzero hx ⊢
  · constructor <;> linarith
  · constructor <;> linarith
  · rcases hparity with h | h <;> rw [h] <;> constructor <;> linarith
  · constructor <;> linarith

end Locates

/-! ### Doubles that hold a number -/

/-- One with the given sign. -/
def oneOfSign (s : Sign) : ℝ :=
  (s.apply 1 : ℤ)

@[simp]
theorem oneOfSign_positive : oneOfSign .positive = 1 := by
  simp [oneOfSign, Sign.apply]

@[simp]
theorem oneOfSign_negative : oneOfSign .negative = -1 := by
  simp [oneOfSign, Sign.apply]

theorem apply_eq (s : Sign) (m : ℕ) : ((s.apply m : ℤ) : ℝ) = oneOfSign s * m := by
  cases s <;> simp [Sign.apply]

/-- A double has the given number as its value, or is infinite because the number is too great. -/
inductive Holds (w : ℝ) (x : Float) : Prop
  | finite (h : x.isFinite = true) (hvalue : (value x : ℝ) = w)
  | infinite (s : Sign) (h : parts x = .infinity s) (hlarge : unit 1024 ≤ oneOfSign s * w)

/-- **A double is the result of rounding** a number. -/
def IsRounded (v : ℝ) (x : Float) : Prop :=
  ∃ r t, RoundsTo v r t ∧ Holds (r * unit t) x

theorem holds_zero (s : Sign) : Holds 0 (pack (.zero s)) :=
  .finite (isFinite_pack_zero s) (by cases s <;> simp [value, valueOfParts] <;> rfl)

/-- Parts with all bits hold what they stand for. -/
theorem holds_finite (s : Sign) {m : ℕ} {e : ℤ} (hm : 0 < m) (hlt : m < 2 ^ 53) (hleast : -1074 ≤ e)
    (hfull : 2 ^ 52 ≤ m ∨ e = -1074) :
    Holds ((s.apply m : ℤ) * unit e) (pack (.finite s m e hm)) := by
  rcases le_or_gt e 971 with he | he
  · refine .finite (isFinite_pack s hm he) ?_
    rw [value, parts_pack s hm ⟨hlt, hleast, he, hfull⟩, valueOfParts, unit]
    push_cast
    rfl
  · have hfull := hfull.resolve_right (by omega)
    refine .infinite s ?_ ?_
    · have hbiased : 2 ^ Format.binary64.exponentBits ≤
          (e + (Format.binary64.exponentBias : ℤ) +
            (Format.binary64.mantissaBitsWithoutImplicit : ℤ)).toNat + 1 := by
        change 2048 ≤ (e + 1023 + 52).toNat + 1
        omega
      change UnpackedFloat.unpack Format.binary64 (UnpackedFloat.pack Format.binary64 _) = _
      simp only [UnpackedFloat.pack, if_pos hbiased]
      exact unpack_packComponents s (-1#11) 0#52
    · have hsquare : oneOfSign s * oneOfSign s = 1 := by cases s <;> simp
      rw [apply_eq, ← mul_assoc, ← mul_assoc, hsquare, MulOneClass.one_mul]
      calc unit 1024 ≤ unit (52 + e) := unit_le_iff.mpr (by omega)
        _ = 2 ^ 52 * unit e := by rw [unit_add, unit_ofNat]
        _ ≤ m * unit e := mul_le_mul_of_nonneg_right (by exact_mod_cast hfull) (unit_pos e).le

/-! ### Rounding parts -/

/-- A mantissa that has no bit too many is not shifted, and a power of two just above loses a zero. -/
theorem shiftToTargetExponent_spec {m : ℕ} {t : ℤ} (hm : m ≤ 2 ^ 53) (hleast : -1074 ≤ t)
    (hfull : 2 ^ 52 ≤ m ∨ t = -1074) :
    let shifted := shiftToTargetExponent .binary64 m t .exact
    (shifted.1.mantissa : ℝ) * unit shifted.2 = m * unit t ∧ shifted.1.mantissa < 2 ^ 53 ∧
      -1074 ≤ shifted.2 ∧ (2 ^ 52 ≤ shifted.1.mantissa ∨ shifted.2 = -1074) := by
  rw [shiftToTargetExponent_eq]
  rcases Nat.lt_or_eq_of_le hm with hlt | rfl
  · have hlog : m.log2 ≤ 52 := log2_le hlt
    have hshift : (max (m.log2 + 1 + t - 53) (-1074) - t).toNat = 0 := by omega
    have hexponent : max t (max (m.log2 + 1 + t - 53) (-1074)) = t := by omega
    rw [hshift, hexponent]
    exact ⟨rfl, hlt, hleast, hfull⟩
  · have hlog : (2 ^ 53 : ℕ).log2 = 53 := Nat.log2_two_pow
    have hshift : (max ((2 ^ 53 : ℕ).log2 + 1 + t - 53) (-1074) - t).toNat = 1 := by omega
    have hexponent : max t (max ((2 ^ 53 : ℕ).log2 + 1 + t - 53) (-1074)) = t + 1 := by omega
    have hhalf : ExtendedMantissa.ofMantissaAndAccuracy (2 ^ 53) .exact >>> 1 =
        ExtendedMantissa.ofMantissaAndAccuracy (2 ^ 52) .exact := shiftRight_zeros (2 ^ 52) 1
    rw [hshift, hexponent, hhalf]
    simp only [ExtendedMantissa.ofMantissaAndAccuracy]
    refine ⟨?_, by norm_num, by omega, .inl le_rfl⟩
    rw [unit_add_one]
    push_cast
    ring

section Locating

variable {m : ℕ} {e : ℤ} {a : Accuracy} {x : ℝ}

/-- What is shifted locates the same number, in other units. -/
theorem locates_shiftToTargetExponent (h : Locates (.ofMantissaAndAccuracy m a) x) (e : ℤ) :
    ∃ y, Locates (shiftToTargetExponent .binary64 m e a).1 y ∧
      y * unit (shiftToTargetExponent .binary64 m e a).2 = x * unit e := by
  rw [shiftToTargetExponent_eq]
  refine ⟨_, h.shiftRight _, ?_⟩
  generalize hk : (max (m.log2 + 1 + e - 53) (-1074) - e).toNat = k
  have hexponent : max e (max (m.log2 + 1 + e - 53) (-1074)) = k + e := by omega
  simp only
  rw [hexponent, unit_add, unit_natCast]
  field_simp

/-- There are at most fifty-three bits after the shift. -/
theorem mantissa_shiftToTargetExponent_lt (m : ℕ) (e : ℤ) (a : Accuracy) :
    (shiftToTargetExponent .binary64 m e a).1.mantissa < 2 ^ 53 := by
  rw [shiftToTargetExponent_eq]
  simp only [mantissa_shiftRight]
  rw [mantissa_ofMantissaAndAccuracy, Nat.div_lt_iff_lt_mul (Nat.two_pow_pos _), ← Nat.pow_add]
  refine Nat.lt_of_lt_of_le (Nat.lt_log2_self (n := m)) (Nat.pow_le_pow_right (by norm_num) ?_)
  omega

/-- **A mantissa that locates a number, with bits enough, rounds it.** -/
theorem roundsTo_of_locates (h : Locates (.ofMantissaAndAccuracy m a) x)
    (hbits : 2 ^ 52 ≤ m ∨ e ≤ -1074) :
    RoundsTo (x * unit e) (shiftToTargetExponent .binary64 m e a).1.roundedMantissa
      (shiftToTargetExponent .binary64 m e a).2 := by
  obtain ⟨y, hy, hunits⟩ := locates_shiftToTargetExponent h e
  have hlt : y < 2 ^ 53 := by
    have := mantissa_shiftToTargetExponent_lt m e a
    calc y < (shiftToTargetExponent .binary64 m e a).1.mantissa + 1 := hy.lt_mantissa
      _ ≤ 2 ^ 53 := by exact_mod_cast this
  have hnonneg := hy.nonneg
  have hnear := hy.abs_sub_roundedMantissa_le
  have hmantissa := h.mantissa_le
  rw [mantissa_ofMantissaAndAccuracy] at hmantissa
  have hexponent := congrArg Prod.snd (shiftToTargetExponent_eq m e a)
  generalize shiftToTargetExponent .binary64 m e a = shifted at *
  obtain ⟨em, t⟩ := shifted
  simp only at *
  rw [← hunits]
  refine ⟨by omega, ?_, ?_, ?_⟩
  · have hhalf : unit (t - 1) = 1 / 2 * unit t := by
      rw [← RoundsTo.two_mul_unit_pred t]
      ring
    rw [← sub_mul, abs_mul, abs_of_pos (unit_pos t), hhalf]
    exact mul_le_mul_of_nonneg_right (by exact_mod_cast hnear) (unit_pos t).le
  · rw [abs_of_nonneg (mul_nonneg hnonneg (unit_pos t).le), add_comm, unit_add, unit_ofNat]
    exact mul_lt_mul_of_pos_right hlt (unit_pos t)
  · by_cases hleast : t = -1074
    · exact .inr hleast
    · refine .inl ?_
      have hm : m ≠ 0 := by
        rintro rfl
        have : (0 : ℕ).log2 = 0 := rfl
        omega
      have ht : t + 52 = m.log2 + e := by
        have hlog : 2 ^ 52 ≤ m → 52 ≤ m.log2 := (Nat.le_log2 hm).mpr
        omega
      have hself : unit m.log2 ≤ m := by
        rw [unit_natCast]
        exact_mod_cast Nat.log2_self_le hm
      rw [abs_of_nonneg (mul_nonneg hnonneg (unit_pos t).le), hunits, ht, unit_add]
      exact mul_le_mul_of_nonneg_right (hself.trans hmantissa) (unit_pos e).le

/-- **Parts that locate a number are rounded to it**, if they have bits enough. -/
theorem isRounded_of_locates (s : Sign) (h : Locates (.ofMantissaAndAccuracy m a) x)
    (hbits : 2 ^ 52 ≤ m ∨ e ≤ -1074) :
    IsRounded (oneOfSign s * (x * unit e)) (pack (roundWithAccuracy .binary64 s m e a)) := by
  have hrounds := roundsTo_of_locates h hbits
  have hle : (shiftToTargetExponent .binary64 m e a).1.roundedMantissa ≤ 2 ^ 53 :=
    (roundedMantissa_le _).trans (mantissa_shiftToTargetExponent_lt m e a)
  unfold roundWithAccuracy
  generalize shiftToTargetExponent .binary64 m e a = shifted at *
  obtain ⟨em, t⟩ := shifted
  simp only at *
  have hfull : 2 ^ 52 ≤ em.roundedMantissa ∨ t = -1074 := by
    refine hrounds.full.imp_left fun hfull => ?_
    rw [abs_of_nonneg (mul_nonneg h.nonneg (unit_pos e).le)] at hfull
    have hge := hrounds.ge_of_ge (isShort_unit (by have := hrounds.least; omega)) hfull
    rw [add_comm, unit_add, unit_ofNat] at hge
    exact_mod_cast le_of_mul_le_mul_right hge (unit_pos t)
  refine ⟨s.apply em.roundedMantissa, t, ?_, ?_⟩
  · cases s with
    | positive => simpa [Sign.apply] using hrounds
    | negative => simpa [Sign.apply] using hrounds.neg
  · have hsecond := shiftToTargetExponent_spec hle hrounds.least hfull
    generalize shiftToTargetExponent .binary64 em.roundedMantissa t .exact = shifted at *
    obtain ⟨hvalue, hn, hf, hnfull⟩ := hsecond
    rw [apply_eq, mul_assoc, ← hvalue, ← mul_assoc, ← apply_eq]
    by_cases hzero : shifted.1.mantissa = 0
    · rw [dif_pos hzero, hzero, apply_eq, Nat.cast_zero, mul_zero, zero_mul]
      exact holds_zero s
    · rw [dif_neg hzero]
      exact holds_finite s (Nat.pos_of_ne_zero hzero) hn hf hnfull

end Locating

end TrafficWatch.Double
