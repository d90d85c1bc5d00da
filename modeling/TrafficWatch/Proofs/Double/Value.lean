import TrafficWatch.Proofs.Double.Parts

/-!
# Double — Value

The value of a double as a fraction (`value`), and what of it can be computed with.  A double that is
finite becomes a machine word by dropping what follows the point (`toNat_toUInt64`).  A natural
number of at most fifty-three bits has itself as its value (`value_ofNat`), and so has its product
with one (`one_mul`).  The product of a share and a number that a machine word holds, both of which
are rounded, is finite (`isFinite_mul_ofNat`).
-/

namespace TrafficWatch.Double

open Float.Model (Format UnpackedFloat totalExponent)
open Float.Model.UnpackedFloat (Sign Accuracy ExtendedMantissa roundWithAccuracy roundToInt
  shiftToTargetExponent)

/-! ### Values -/

/-- The value of parts; what is not finite counts as zero. -/
def valueOfParts : UnpackedFloat → ℚ
  | .finite s m e _ => s.apply m * 2 ^ e
  | .notANumber | .infinity _ | .zero _ => 0

/-- The value of a double; what is not finite counts as zero. -/
def value (x : Float) : ℚ :=
  valueOfParts (parts x)

/-! ### Shifting -/

/-- Shifting to the right divides. -/
theorem mantissa_shiftRight (em : ExtendedMantissa) (k : Nat) :
    (em >>> k).mantissa = em.mantissa / 2 ^ k := by
  induction k with
  | zero => exact (Nat.div_one _).symm
  | succ k ih =>
      change (em >>> k).mantissa / 2 = _
      rw [ih, Nat.div_div_eq_div_mul, Nat.pow_succ]

/-- Zeros are shifted out to the right without a trace. -/
theorem shiftRight_zeros (m k : Nat) :
    ExtendedMantissa.ofMantissaAndAccuracy (m * 2 ^ k) .exact >>> k =
      ExtendedMantissa.ofMantissaAndAccuracy m .exact := by
  induction k generalizing m with
  | zero =>
      rw [Nat.pow_zero, Nat.mul_one]
      rfl
  | succ k ih =>
      change (ExtendedMantissa.ofMantissaAndAccuracy (m * 2 ^ (k + 1)) .exact >>> k).shiftRightOne = _
      rw [Nat.pow_succ', ← Nat.mul_assoc, ih]
      simp [ExtendedMantissa.shiftRightOne, ExtendedMantissa.ofMantissaAndAccuracy]

/-! ### The whole part -/

theorem roundToInt_eq (s : Sign) (m : Nat) (e : Int) :
    roundToInt s m e = s.apply ↑(m * 2 ^ e.toNat / 2 ^ (-e).toNat) := by
  unfold roundToInt
  simp only [Float.Model.UnpackedFloat.decreaseExponent,
    Float.Model.UnpackedFloat.shiftToExponent, mantissa_shiftRight, Nat.shiftLeft_eq]
  have hleft : (e - 0).toNat = e.toNat := by omega
  have hright : (0 - (e - (e.toNat : Int))).toNat = (-e).toNat := by omega
  rw [hleft, hright]
  rfl

/-- The whole part of a fraction. -/
theorem floor_scaled (m : Nat) (e : Int) :
    ⌊(m : ℚ) * 2 ^ e⌋₊ = m * 2 ^ e.toNat / 2 ^ (-e).toNat := by
  have he : (e : Int) = e.toNat - (-e).toNat := by omega
  have hquotient :
      (m : ℚ) * 2 ^ e = ((m * 2 ^ e.toNat : Nat) : ℚ) / ((2 ^ (-e).toNat : Nat) : ℚ) := by
    conv_lhs => rw [he]
    rw [zpow_sub₀ (by norm_num)]
    push_cast
    rw [zpow_natCast, zpow_natCast, mul_div_assoc]
  rw [hquotient, Nat.floor_div_eq_div]

theorem toNat_ofNatClamp (n : Nat) : (UInt64.ofNatClamp n).toNat = min n (2 ^ 64 - 1) := by
  unfold UInt64.ofNatClamp
  split
  · rename_i h
    have h : n < 2 ^ 64 := h
    rw [UInt64.toNat_ofNatLT]
    omega
  · rename_i h
    have h : ¬ n < 2 ^ 64 := h
    rw [UInt64.toNat_ofNatLT]
    change 2 ^ 64 - 1 = _
    omega

/-- **The whole part of a double** as a machine word; what is negative has none. -/
theorem toNat_toUInt64 {x : Float} (h : x.isFinite = true) :
    x.toUInt64.toNat = min ⌊value x⌋₊ (2 ^ 64 - 1) := by
  change (parts x).isFinite = true at h
  change (UInt64.ofNatClamp (UnpackedFloat.toInt 0 _ (parts x)).toNat).toNat =
    min ⌊valueOfParts (parts x)⌋₊ _
  rw [toNat_ofNatClamp]
  generalize parts x = u at h ⊢
  cases u with
  | notANumber | infinity s => cases h
  | zero s => simp [valueOfParts, UnpackedFloat.toInt]
  | finite s m e hm =>
      refine congrArg (min · _) ?_
      change (roundToInt s m e).toNat = ⌊((s.apply m : Int) : ℚ) * 2 ^ e⌋₊
      rw [roundToInt_eq, ← floor_scaled]
      cases s with
      | positive => rfl
      | negative =>
          have hvalue : ((-m : Int) : ℚ) * 2 ^ e ≤ 0 := by
            push_cast
            exact mul_nonpos_of_nonpos_of_nonneg (by simp) (by positivity)
          change (-(⌊(m : ℚ) * 2 ^ e⌋₊ : Int)).toNat = ⌊((-m : Int) : ℚ) * 2 ^ e⌋₊
          rw [Nat.floor_of_nonpos hvalue]
          omega

/-! ### Rounding what fits -/

/-- The exponent of what is canonical is the one that rounding aims for. -/
theorem IsCanonical.targetExponent {m : Nat} {e : Int} (h : IsCanonical m e) (hm : m ≠ 0) (k : Nat) :
    Format.binary64.targetExponent (totalExponent (m * 2 ^ k) (e - k)) = e := by
  have hlog : (m * 2 ^ k).log2 = m.log2 + k := by
    refine log2_eq ?_ ?_
    · rw [Nat.pow_add]
      exact Nat.mul_le_mul_right _ (Nat.log2_self_le hm)
    · rw [Nat.add_right_comm, Nat.pow_add]
      exact Nat.mul_lt_mul_of_pos_right Nat.lt_log2_self (Nat.two_pow_pos k)
  have hlt := (Nat.log2_lt hm).mpr h.lt
  have hleast := h.least
  simp only [Format.targetExponent, totalExponent, hlog, Format.mantissaBits, Format.minExponent]
  rcases h.full with hfull | hfull
  · have := (Nat.le_log2 hm).mpr hfull
    omega
  · omega

theorem IsCanonical.shiftToTargetExponent {m : Nat} {e : Int} (h : IsCanonical m e) (hm : m ≠ 0)
    (k : Nat) :
    shiftToTargetExponent .binary64 (m * 2 ^ k) (e - k) .exact = (⟨m, false, false⟩, e) := by
  have hshift : (e - (e - (k : Int))).toNat = k := by omega
  simp only [UnpackedFloat.shiftToTargetExponent, h.targetExponent hm,
    UnpackedFloat.shiftToExponent, hshift, shiftRight_zeros, Int.sub_add_cancel]
  rfl

/-- **What is canonical, up to zeros at its end, is not changed by rounding.** -/
theorem roundWithAccuracy_zeros (s : Sign) {m : Nat} {e : Int} (hm : 0 < m) (h : IsCanonical m e)
    (k : Nat) : roundWithAccuracy .binary64 s (m * 2 ^ k) (e - k) .exact = .finite s m e hm := by
  have hzeros := h.shiftToTargetExponent (Nat.ne_of_gt hm) k
  have hnone := h.shiftToTargetExponent (Nat.ne_of_gt hm) 0
  simp only [Nat.pow_zero, Nat.mul_one, Int.natCast_zero, Int.sub_zero] at hnone
  have hrounded : ExtendedMantissa.roundedMantissa ⟨m, false, false⟩ = m := rfl
  simp only [roundWithAccuracy, hzeros, hrounded, hnone, dif_neg (Nat.ne_of_gt hm)]

/-! ### Products with one -/

theorem mul_comm (x y : Float) : x * y = y * x := by
  have hsigns (s t : Sign) : s * t = t * s := by cases s <;> cases t <;> rfl
  have hmul (u v : UnpackedFloat) :
      UnpackedFloat.mul .binary64 u v = UnpackedFloat.mul .binary64 v u := by
    cases u <;> cases v <;> simp only [UnpackedFloat.mul, hsigns, Nat.mul_comm, Int.add_comm]
  exact congrArg pack (hmul (parts x) (parts y))

/-- One times a double is that double. -/
theorem one_mul (x : Float) : 1.0 * x = x := by
  have hone : parts 1.0 = .finite .positive (2 ^ 52) (-52) (by decide) := rfl
  have hmul : UnpackedFloat.mul .binary64 (parts 1.0) (parts x) = parts x := by
    rw [hone]
    cases hx : parts x with
    | notANumber => rfl
    | infinity s | zero s => cases s <;> rfl
    | finite s m e hm =>
        have hsign : Sign.positive * s = s := by cases s <;> rfl
        change roundWithAccuracy .binary64 (Sign.positive * s) (2 ^ 52 * m) (-52 + e) .exact = _
        rw [hsign, Nat.mul_comm, Int.add_comm]
        exact roundWithAccuracy_zeros s hm (isCanonical_of_parts hx) 52
  change pack (UnpackedFloat.mul .binary64 (parts 1.0) (parts x)) = x
  rw [hmul, pack_parts]

/-! ### Natural numbers -/

/-- A natural number of few bits, rounded. -/
theorem isCanonical_ofNat {n : Nat} (hn : 0 < n) (hlt : n < 2 ^ 53) :
    IsCanonical (n * 2 ^ (52 - n.log2)) (n.log2 - 52) := by
  have hlog := (Nat.log2_lt (Nat.ne_of_gt hn)).mpr hlt
  have hlow := Nat.mul_le_mul_right (2 ^ (52 - n.log2)) (Nat.log2_self_le (Nat.ne_of_gt hn))
  have hself : n < 2 ^ (n.log2 + 1) := Nat.lt_log2_self
  have hhigh := Nat.mul_lt_mul_of_pos_right hself (Nat.two_pow_pos (52 - n.log2))
  rw [← Nat.pow_add] at hlow hhigh
  have h52 : n.log2 + (52 - n.log2) = 52 := by omega
  have h53 : n.log2 + 1 + (52 - n.log2) = 53 := by omega
  rw [h52] at hlow
  rw [h53] at hhigh
  exact ⟨hhigh, by omega, by omega, .inl hlow⟩

theorem round_ofNat {n : Nat} (hn : 0 < n) (hlt : n < 2 ^ 53) :
    ∃ hm, UnpackedFloat.ofNat .binary64 n =
      .finite .positive (n * 2 ^ (52 - n.log2)) (n.log2 - 52) hm := by
  have hcanonical := isCanonical_ofNat hn hlt
  have hlog := (Nat.log2_lt (Nat.ne_of_gt hn)).mpr hlt
  have hm : 0 < n * 2 ^ (52 - n.log2) := Nat.mul_pos hn (Nat.two_pow_pos _)
  have htarget : Format.binary64.targetExponent (totalExponent n 0) = (n.log2 : Int) - 52 := by
    simp only [Format.targetExponent, totalExponent, Format.mantissaBits, Format.minExponent]
    omega
  have hshift : (0 - ((n.log2 : Int) - 52)).toNat = 52 - n.log2 := by omega
  have hexponent : (0 : Int) - ((52 - n.log2 : Nat) : Int) = n.log2 - 52 := by omega
  have hround := roundWithAccuracy_zeros .positive hm hcanonical 0
  simp only [Nat.pow_zero, Nat.mul_one, Int.natCast_zero, Int.sub_zero] at hround
  refine ⟨hm, ?_⟩
  have hcompare : compare (n : Int) 0 = .gt := Int.compare_eq_gt.mpr (by omega)
  simp only [UnpackedFloat.ofNat, UnpackedFloat.ofInt, UnpackedFloat.normalize, hcompare,
    UnpackedFloat.round, Int.toNat_natCast, htarget, UnpackedFloat.decreaseExponent, hshift,
    hexponent, Nat.shiftLeft_eq, hround]

/-- A natural number of few bits, taken apart. -/
theorem parts_ofNat {n : Nat} (hn : 0 < n) (hlt : n < 2 ^ 53) :
    ∃ hm, parts (Float.ofNat n) =
      .finite .positive (n * 2 ^ (52 - n.log2)) (n.log2 - 52) hm := by
  obtain ⟨hm, hround⟩ := round_ofNat hn hlt
  have hword : n.toUInt64.toNat = n :=
    UInt64.toNat_ofNat_of_lt' (Nat.lt_trans hlt (by decide))
  have hofNat : Float.ofNat n = n.toUInt64.toFloat * 1.0 := by
    unfold Float.ofNat OfScientific.ofScientific instOfScientificFloat Float.ofScientific
    simp only
    rw [dif_pos ⟨hlt, by decide⟩]
    rfl
  rw [hofNat, mul_comm, one_mul]
  refine ⟨hm, ?_⟩
  change parts (pack (UnpackedFloat.ofNat .binary64 n.toUInt64.toNat)) = _
  rw [hword, hround, parts_pack _ hm (isCanonical_ofNat hn hlt)]

/-- **A natural number of few bits has itself as its value.** -/
theorem value_ofNat {n : Nat} (hlt : n < 2 ^ 53) : value (Float.ofNat n) = n := by
  rcases Nat.eq_zero_or_pos n with rfl | hn
  · rfl
  · obtain ⟨hm, hparts⟩ := parts_ofNat hn hlt
    have hlog := (Nat.log2_lt (Nat.ne_of_gt hn)).mpr hlt
    rw [value, hparts]
    change (((n * 2 ^ (52 - n.log2) : Nat) : Int) : ℚ) * 2 ^ ((n.log2 : Int) - 52) = n
    have hexponent : (n.log2 : Int) - 52 = -((52 - n.log2 : Nat) : Int) := by omega
    rw [hexponent, zpow_neg, zpow_natCast]
    push_cast
    rw [mul_assoc, mul_inv_cancel₀ (by positivity), mul_one]

/-! ### Shares of natural numbers -/

theorem roundedMantissa_le (em : ExtendedMantissa) : em.roundedMantissa ≤ em.mantissa + 1 := by
  obtain ⟨m, round, sticky⟩ := em
  have : m % 2 < 2 := Nat.mod_lt _ (by decide)
  cases round <;> cases sticky <;>
    simp only [ExtendedMantissa.roundedMantissa, ExtendedMantissa.accuracy,
      Accuracy.roundToNearestEven] <;> omega

theorem log2_le {m k : Nat} (h : m < 2 ^ (k + 1)) : m.log2 ≤ k := by
  rcases Nat.eq_zero_or_pos m with rfl | hm
  · exact Nat.zero_le k
  · exact Nat.le_of_lt_succ ((Nat.log2_lt (Nat.ne_of_gt hm)).mpr h)

/-- Where rounding ends up, seen from where it starts. -/
theorem shiftToTargetExponent_eq (m : Nat) (e : Int) (a : Accuracy) :
    shiftToTargetExponent .binary64 m e a =
      (ExtendedMantissa.ofMantissaAndAccuracy m a >>>
          (max (m.log2 + 1 + e - 53) (-1074) - e).toNat,
        max e (max (m.log2 + 1 + e - 53) (-1074))) := by
  simp only [UnpackedFloat.shiftToTargetExponent, UnpackedFloat.shiftToExponent,
    Format.targetExponent, totalExponent, Format.mantissaBits, Format.minExponent]
  refine Prod.ext rfl ?_
  simp only
  omega

/-- What does not have too many bits before the point is rounded to a finite number, whose exponent is
not much greater. -/
theorem round_spec (s : Sign) {m : Nat} {e : Int} (hm : m < 2 ^ 128) :
    (∃ t, roundWithAccuracy .binary64 s m e .exact = .zero t) ∨
      ∃ t n f hn, roundWithAccuracy .binary64 s m e .exact = .finite t n f hn ∧
        f ≤ max e (-1074) + 151 := by
  have hfirst := congrArg Prod.snd (shiftToTargetExponent_eq m e .exact)
  have hmantissa : (shiftToTargetExponent .binary64 m e .exact).1.mantissa ≤ m := by
    rw [shiftToTargetExponent_eq, mantissa_shiftRight]
    exact Nat.div_le_self m _
  unfold roundWithAccuracy
  generalize shiftToTargetExponent .binary64 m e .exact = first at hfirst hmantissa ⊢
  obtain ⟨em, e₁⟩ := first
  have hsecond := congrArg Prod.snd (shiftToTargetExponent_eq em.roundedMantissa e₁ .exact)
  simp only at hfirst hmantissa ⊢
  split
  · exact .inl ⟨s, rfl⟩
  · rename_i hne
    refine .inr ⟨s, _, _, Nat.pos_of_ne_zero hne, rfl, ?_⟩
    have hrounded := roundedMantissa_le em
    have hlog : m.log2 ≤ 127 := log2_le hm
    have hlog₁ : em.roundedMantissa.log2 ≤ 128 := log2_le (by omega)
    omega

/-- What has not too many bits before the point is finite once it is rounded. -/
theorem isFinite_round (s : Sign) {m : Nat} {e : Int} (hm : m < 2 ^ 128) (he : e ≤ 820) :
    (pack (roundWithAccuracy .binary64 s m e .exact)).isFinite = true := by
  rcases round_spec s hm with ⟨t, h⟩ | ⟨t, n, f, hn, h, hf⟩
  · rw [h]
    exact isFinite_pack_zero t
  · rw [h]
    exact isFinite_pack t hn (by omega)

/-- A double between zero and one, taken apart. -/
theorem parts_of_share {q : Float} (hlow : 0.0 ≤ q) (hhigh : q ≤ 1.0) :
    (∃ s, parts q = .zero s) ∨ ∃ m e hm, parts q = .finite .positive m e hm ∧ e ≤ -52 := by
  have hzero : parts 0.0 = .zero .positive := rfl
  have hone : parts 1.0 = .finite .positive (2 ^ 52) (-52) (by decide) := rfl
  rw [le_iff, hzero] at hlow
  rw [le_iff, hone] at hhigh
  generalize parts q = u at hlow hhigh ⊢
  rcases u with (_ | _) | _ | s | ⟨_ | _, m, e, hm⟩
  case zero => exact .inl ⟨s, rfl⟩
  case finite.positive =>
      refine .inr ⟨m, e, hm, rfl, ?_⟩
      rcases Int.lt_trichotomy e (-52) with he | he | he
      · exact Int.le_of_lt he
      · exact Int.le_of_eq he
      · change ((compare e (-52)).then (compare m (2 ^ 52))).isLE = true at hhigh
        rw [Int.compare_eq_gt.mpr he] at hhigh
        cases hhigh
  all_goals first
    | exact absurd hlow Bool.false_ne_true
    | exact absurd hhigh Bool.false_ne_true

theorem isFinite_of_share {q : Float} (hlow : 0.0 ≤ q) (hhigh : q ≤ 1.0) : q.isFinite = true := by
  change (parts q).isFinite = true
  rcases parts_of_share hlow hhigh with ⟨s, hq⟩ | ⟨m, e, hm, hq, -⟩ <;> rw [hq] <;> rfl

/-- Zero, or a finite number whose exponent is not above a bound. -/
def IsModerate (bound : Int) (u : UnpackedFloat) : Prop :=
  (∃ s, u = .zero s) ∨ ∃ s m e hm, u = .finite s m e hm ∧ e ≤ bound

theorem isModerate_pack {bound : Int} {u : UnpackedFloat} (h : IsModerate bound u)
    (hlow : -1074 ≤ bound) (hhigh : bound ≤ 971) : IsModerate bound (parts (pack u)) := by
  rcases h with ⟨s, rfl⟩ | ⟨s, m, e, hm, rfl, he⟩
  · exact .inl ⟨s, by cases s <;> rfl⟩
  · change IsModerate bound (UnpackedFloat.unpack Format.binary64 (UnpackedFloat.pack Format.binary64 _))
    have hinfinite : BitVec.ofNat 11 (e + 1075).toNat ≠ -1#11 := ofNat_ne_ones (by omega)
    have hexponent : (BitVec.ofNat 11 (e + 1075).toNat).toNat = (e + 1075).toNat :=
      Nat.mod_eq_of_lt (by omega)
    rw [pack_eq_packComponents s hm (by omega)]
    split
    · rw [unpack_packComponents, if_neg hinfinite]
      split
      · split
        · exact .inl ⟨s, rfl⟩
        · exact .inr ⟨s, _, _, _, rfl, hlow⟩
      · exact .inr ⟨s, _, _, _, rfl, by omega⟩
    · rw [unpack_packComponents, if_neg (by decide), if_pos rfl]
      split
      · exact .inl ⟨s, rfl⟩
      · exact .inr ⟨s, _, _, _, rfl, hlow⟩

/-- A natural number of many bits, as a double. -/
theorem ofNat_of_le {n : Nat} (hmany : 2 ^ 53 ≤ n) :
    Float.ofNat n = pack (roundWithAccuracy .binary64 .positive (n * 2 ^ 53) (-53) .exact) := by
  have hpos : 0 < n := Nat.lt_of_lt_of_le (Nat.two_pow_pos 53) hmany
  unfold Float.ofNat OfScientific.ofScientific instOfScientificFloat Float.ofScientific
  simp only
  rw [dif_neg fun h => absurd h.1 (Nat.not_lt.mpr hmany)]
  change pack (UnpackedFloat.ofScientific .binary64 n 0) = _
  have hguard : ¬ (0 : Int) < -(2 ^ Format.binary64.exponentBits + n.log2) := fun h => by
    have h : (0 : Int) < -(2048 + n.log2) := h
    omega
  unfold UnpackedFloat.ofScientific
  rw [dif_neg (Nat.ne_of_gt hpos), if_neg (by decide), if_neg hguard, if_pos (Int.le_refl 0)]
  simp only [UnpackedFloat.mul, Format.mantissaBits, Nat.shiftLeft_eq, Int.toNat_zero, Nat.pow_zero,
    Nat.mul_one]
  rfl

/-- A natural number that a machine word holds is not too great as a double. -/
theorem isModerate_ofNat {n : Nat} (hn : n < 2 ^ 64) : IsModerate 98 (parts (Float.ofNat n)) := by
  rcases Nat.eq_zero_or_pos n with rfl | hpos
  · exact .inl ⟨.positive, rfl⟩
  rcases Nat.lt_or_ge n (2 ^ 53) with hfew | hmany
  · obtain ⟨hm, hparts⟩ := parts_ofNat hpos hfew
    have hlog := (Nat.log2_lt (Nat.ne_of_gt hpos)).mpr hfew
    exact .inr ⟨_, _, _, hm, hparts, by omega⟩
  · rw [ofNat_of_le hmany]
    have hbits : n * 2 ^ 53 < 2 ^ 128 := by omega
    refine isModerate_pack ?_ (by decide) (by decide)
    rcases round_spec .positive hbits with h | ⟨t, m, f, hm, h, hf⟩
    · exact .inl h
    · exact .inr ⟨t, m, f, hm, h, by omega⟩

/-- **A share of a natural number that a machine word holds is finite.** -/
theorem isFinite_mul_ofNat {q : Float} (hlow : 0.0 ≤ q) (hhigh : q ≤ 1.0) {n : Nat}
    (hn : n < 2 ^ 64) : (q * Float.ofNat n).isFinite = true := by
  change (pack (UnpackedFloat.mul .binary64 (parts q) (parts (Float.ofNat n)))).isFinite = true
  rcases parts_of_share hlow hhigh with ⟨s, hq⟩ | ⟨m, e, hm, hq, he⟩ <;>
    rcases isModerate_ofNat hn with ⟨t, hx⟩ | ⟨t, k, f, hk, hx, hf⟩ <;>
    simp only [hq, hx, UnpackedFloat.mul]
  · exact isFinite_pack_zero _
  · exact isFinite_pack_zero _
  · exact isFinite_pack_zero _
  · refine isFinite_round _ ?_ (by omega)
    calc m * k < 2 ^ 53 * 2 ^ 53 :=
          Nat.mul_lt_mul'' (isCanonical_of_parts hq).lt (isCanonical_of_parts hx).lt
      _ < 2 ^ 128 := by decide

end TrafficWatch.Double
