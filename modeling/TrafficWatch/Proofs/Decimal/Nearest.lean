import TrafficWatch.Decimal.Nearest
import TrafficWatch.Proofs.Decimal.Shortest

/-!
# Decimal — Nearest

Reading a decimal gives the double it rounds to.  `nearestBits` brings a fraction to the form
`ratio · 2 ^ exponent` with a ratio of at most fifty-three bits (`exists_ratio`) and rounds the ratio
once.  When the fraction rounds to a double, that is the double it gives
(`nearestBits_of_rounds`); where the ratio is that of a neighbouring power of two, the carry of
`bitsOf` makes up for it.
`decimalBits_of_rounds` says the same of decimals, for which a power of ten may be left out when the
answer is clear.
-/

namespace TrafficWatch.Decimal

/-! ### Rounding a quotient -/

/-- A quotient that is nearer to a whole number than to any other, or halfway and the number is
even. -/
theorem roundDiv_eq {a b m : Nat} (hb : 0 < b)
    (h : if m % 2 = 0 then 2 * m * b ≤ 2 * a + b ∧ 2 * a ≤ (2 * m + 1) * b
      else 2 * m * b < 2 * a + b ∧ 2 * a < (2 * m + 1) * b) : roundDiv a b = m := by
  have hle : 2 * m * b ≤ 2 * a + b ∧ 2 * a ≤ (2 * m + 1) * b := by
    split at h
    · exact h
    · exact ⟨h.1.le, h.2.le⟩
  have hdiv : a = b * (a / b) + a % b := (Nat.div_add_mod a b).symm
  have hlt : a % b < b := Nat.mod_lt a hb
  unfold roundDiv
  generalize a / b = q at hdiv ⊢
  generalize a % b = r at hdiv hlt ⊢
  subst hdiv
  -- the whole part of the quotient is the number or the one before it
  have hcases : m = q ∨ m = q + 1 := by
    have hlow : q ≤ m := by
      by_contra hlt'
      have : b * (m + 1) ≤ b * q := Nat.mul_le_mul_left b (by omega)
      nlinarith [hle.2]
    have hhigh : m ≤ q + 1 := by
      by_contra hlt'
      have : b * (q + 2) ≤ b * m := Nat.mul_le_mul_left b (by omega)
      nlinarith [hle.1]
    omega
  rcases hcases with rfl | rfl
  · have hr : 2 * r ≤ b := by nlinarith [hle.2]
    rcases Nat.lt_or_eq_of_le hr with hr | hr
    · rw [Nat.compare_eq_lt.mpr hr]
    · have heven : m % 2 = 0 := by
        by_contra hodd
        rw [if_neg hodd] at h
        nlinarith [h.2]
      rw [Nat.compare_eq_eq.mpr hr]
      exact if_pos heven
  · have hr : b ≤ 2 * r := by nlinarith [hle.1]
    rcases Nat.lt_or_eq_of_le hr with hr | hr
    · rw [Nat.compare_eq_gt.mpr hr]
    · have heven : (q + 1) % 2 = 0 := by
        by_contra hodd
        rw [if_neg hodd] at h
        nlinarith [h.1]
      rw [Nat.compare_eq_eq.mpr hr.symm]
      exact if_neg (by omega)

/-- A ratio that lies within half of a whole number, at half only when the number is even. -/
theorem roundDiv_of_ratio {a b m : Nat} (hb : 0 < b)
    (h : if m % 2 = 0 then (m : ℚ) - 1 / 2 ≤ a / b ∧ (a : ℚ) / b ≤ m + 1 / 2
      else (m : ℚ) - 1 / 2 < a / b ∧ (a : ℚ) / b < m + 1 / 2) : roundDiv a b = m := by
  have hpos : (0 : ℚ) < b := Nat.cast_pos.mpr hb
  refine roundDiv_eq hb ?_
  split at h
  · rw [if_pos ‹_›]
    rw [le_div_iff₀ hpos, div_le_iff₀ hpos] at h
    constructor
    · have : (2 * m * b : ℚ) ≤ 2 * a + b := by linarith [h.1]
      exact_mod_cast this
    · have : (2 * a : ℚ) ≤ (2 * m + 1) * b := by linarith [h.2]
      exact_mod_cast this
  · rw [if_neg ‹_›]
    rw [lt_div_iff₀ hpos, div_lt_iff₀ hpos] at h
    constructor
    · have : (2 * m * b : ℚ) < 2 * a + b := by linarith [h.1]
      exact_mod_cast this
    · have : (2 * a : ℚ) < (2 * m + 1) * b := by linarith [h.2]
      exact_mod_cast this

/-! ### The ratio that is rounded -/

/-- A fraction lies between the powers of two that the lengths of its parts give. -/
theorem ratio_bounds {n d : Nat} (hn : 0 < n) (hd : 0 < d) :
    (2 : ℚ) ^ ((n.log2 : Int) - d.log2 - 1) ≤ n / d ∧
      (n : ℚ) / d < 2 ^ ((n.log2 : Int) - d.log2 + 1) := by
  have hdpos : (0 : ℚ) < d := Nat.cast_pos.mpr hd
  have hn₁ : (2 : ℚ) ^ (n.log2 : Int) ≤ n := by
    rw [zpow_natCast]
    exact_mod_cast Nat.log2_self_le hn.ne'
  have hn₂ : (n : ℚ) < 2 ^ ((n.log2 : Int) + 1) := by
    rw [← Nat.cast_succ, zpow_natCast]
    exact_mod_cast Nat.lt_log2_self
  have hd₁ : (2 : ℚ) ^ (d.log2 : Int) ≤ d := by
    rw [zpow_natCast]
    exact_mod_cast Nat.log2_self_le hd.ne'
  have hd₂ : (d : ℚ) < 2 ^ ((d.log2 : Int) + 1) := by
    rw [← Nat.cast_succ, zpow_natCast]
    exact_mod_cast Nat.lt_log2_self
  constructor
  · rw [le_div_iff₀ hdpos]
    calc (2 : ℚ) ^ ((n.log2 : Int) - d.log2 - 1) * d
        ≤ 2 ^ ((n.log2 : Int) - d.log2 - 1) * 2 ^ ((d.log2 : Int) + 1) :=
          mul_le_mul_of_nonneg_left hd₂.le (by positivity)
      _ = 2 ^ (n.log2 : Int) := by rw [← zpow_add₀ (by norm_num)]; congr 1; omega
      _ ≤ n := hn₁
  · rw [div_lt_iff₀ hdpos]
    calc (n : ℚ) < 2 ^ ((n.log2 : Int) + 1) := hn₂
      _ = 2 ^ ((n.log2 : Int) - d.log2 + 1) * 2 ^ (d.log2 : Int) := by
          rw [← zpow_add₀ (by norm_num)]; congr 1; omega
      _ ≤ 2 ^ ((n.log2 : Int) - d.log2 + 1) * d := mul_le_mul_of_nonneg_left hd₁ (by positivity)

/-- A fraction in units of a power of two. -/
theorem cast_scaled (n d : Nat) (e : Int) :
    ((n * twoTo (-e).toNat : Nat) : ℚ) / (d * twoTo e.toNat : Nat) = n / d / 2 ^ e := by
  rw [Nat.cast_mul, Nat.cast_mul, cast_twoTo, cast_twoTo, pow_toNat 2 (by norm_num) e]
  have h : (2 : ℚ) ^ (-e).toNat ≠ 0 := by positivity
  field_simp

/-- **What is rounded**: the fraction in units of some power of two, of which it has fewer than
`2 ^ 53`, and no fewer than `2 ^ 52` unless the power is the least there is. -/
theorem exists_ratio {n d : Nat} (hn : 0 < n) (hd : 0 < d) :
    ∃ (e : Int) (a b : Nat), nearestBits n d = bitsOf (roundDiv a b) e ∧ 0 < b ∧
      (a : ℚ) / b = n / d / 2 ^ e ∧ -1074 ≤ e ∧ (n : ℚ) / d < 2 ^ 53 * 2 ^ e ∧
        (2 ^ 52 * 2 ^ e ≤ (n : ℚ) / d ∨ e = -1074) := by
  obtain ⟨hlow, hhigh⟩ := ratio_bounds hn hd
  unfold nearestBits
  rw [if_neg hn.ne']
  extract_lets guess exponent top bottom
  have hratio : (top : ℚ) / bottom = n / d / 2 ^ exponent := cast_scaled n d exponent
  have hpow : (0 : ℚ) < 2 ^ exponent := by positivity
  have hsucc : (2 : ℚ) ^ (exponent + 1) = 2 ^ exponent * 2 := zpow_add_one₀ (by norm_num) _
  have hbottom : 0 < bottom := Nat.mul_pos hd (Nat.pow_pos (by decide))
  have hbottom' : (0 : ℚ) < bottom := Nat.cast_pos.mpr hbottom
  have hle : -1074 ≤ exponent := le_max_right _ _
  split
  · rename_i hlong
    have hlong : (2 ^ 53 : ℚ) ≤ top / bottom := by
      rw [le_div_iff₀ hbottom']
      exact_mod_cast (Nat.le_div_iff_mul_le hbottom).mp hlong
    rw [hratio, le_div_iff₀ hpow] at hlong
    -- the guess was one too low, and the next power of two is taken
    refine ⟨_, _, _, rfl, by omega, ?_, by omega, hhigh.trans_le ?_, .inl ?_⟩
    · have hdouble : ((2 * bottom : Nat) : ℚ) = bottom * 2 := by
        rw [Nat.cast_mul, Nat.cast_ofNat, mul_comm]
      rw [hdouble, ← div_div, hratio, hsucc, div_div]
    · rw [← zpow_natCast, ← zpow_add₀ (by norm_num)]
      refine zpow_le_zpow_right₀ (by norm_num) ?_
      have : guess ≤ exponent := le_max_left _ _
      simp only [guess] at this
      omega
    · rw [hsucc]
      linarith
  · rename_i hshort
    have hshort : (top : ℚ) / bottom < 2 ^ 53 := by
      rw [div_lt_iff₀ hbottom']
      exact_mod_cast (Nat.div_lt_iff_lt_mul hbottom).mp (Nat.lt_of_not_le hshort)
    rw [hratio, div_lt_iff₀ hpow] at hshort
    refine ⟨_, _, _, rfl, hbottom, hratio, hle, hshort, ?_⟩
    -- a ratio that is short although the guess was taken would be below its lower bound
    rcases max_choice guess (-1074) with hguess | hleast
    · refine .inl (le_trans (le_of_eq ?_) hlow)
      rw [← zpow_natCast, ← zpow_add₀ (by norm_num)]
      congr 1
      change exponent = guess at hguess
      simp only [guess] at hguess
      omega
    · exact .inr hleast

/-! ### The double that is found -/

/-- The bounds of the numbers that round to a double. -/
theorem Binary.bounds (x : Binary) :
    x.lower = (x.mantissa - if x.narrowBelow then 1 / 4 else 1 / 2) * 2 ^ x.exponent ∧
      x.upper = (x.mantissa + 1 / 2) * 2 ^ x.exponent := by
  have h : (2 : ℚ) ^ (x.exponent - 2) = 2 ^ x.exponent / 4 := by
    rw [zpow_sub₀ (by norm_num)]
    norm_num
  rw [lower, upper, h]
  constructor
  · split <;> ring
  · ring

/-- A mantissa that rounding has raised carries into the field of the exponent. -/
theorem bitsOf_carry {e : Int} (he : -1074 ≤ e) : bitsOf (2 ^ 53) e = bitsOf (2 ^ 52) (e + 1) := by
  have hfield : (e + 1 + 1074).toNat = (e + 1074).toNat + 1 := by omega
  rw [bitsOf, bitsOf, hfield, Nat.add_mul, Nat.one_mul, Nat.add_assoc]
  rfl

/-- A number of whole units of a double that rounds to it. -/
theorem roundDiv_of_rounds {x : Binary} {v : ℚ} (h : x.Rounds v) {a b : Nat} (hb : 0 < b)
    (hratio : (a : ℚ) / b = v / 2 ^ x.exponent) : roundDiv a b = x.mantissa := by
  have hpow : (0 : ℚ) < 2 ^ x.exponent := by positivity
  obtain ⟨hlower, hupper⟩ := x.bounds
  have hhalf : (if x.narrowBelow then 1 / 4 else 1 / 2 : ℚ) ≤ 1 / 2 := by split <;> norm_num
  refine roundDiv_of_ratio hb ?_
  rw [hratio]
  unfold Binary.Rounds at h
  rw [hlower, hupper] at h
  split at h
  · rw [if_pos ‹_›, le_div_iff₀ hpow, div_le_iff₀ hpow]
    refine ⟨le_trans (mul_le_mul_of_nonneg_right ?_ hpow.le) h.1, h.2⟩
    linarith
  · rw [if_neg ‹_›, lt_div_iff₀ hpow, div_lt_iff₀ hpow]
    refine ⟨lt_of_le_of_lt (mul_le_mul_of_nonneg_right ?_ hpow.le) h.1, h.2⟩
    linarith

/-- A number below the powers of two from which a double starts, that rounds to the double all the
same: it lies just below the double, which has the least mantissa. -/
theorem Binary.Rounds.of_below {x : Binary} (hx : x.IsDouble) {v : ℚ} (h : x.Rounds v) {e : Int}
    (he : -1074 ≤ e) (hlt : e < x.exponent) (hv : v < 2 ^ 53 * 2 ^ e) :
    x.mantissa = 2 ^ 52 ∧ x.exponent = e + 1 ∧ (2 ^ 53 - 1 / 2) * 2 ^ e ≤ v := by
  have hle := h.le.1
  rw [x.bounds.1] at hle
  have hpow : (0 : ℚ) < 2 ^ x.exponent := by positivity
  have hstep : (2 : ℚ) ^ e * 2 ≤ 2 ^ x.exponent := by
    rw [← zpow_add_one₀ (by norm_num)]
    exact zpow_le_zpow_right₀ (by norm_num) hlt
  have hmantissa : x.mantissa = 2 ^ 52 := by
    have hfull := hx.full.resolve_right (by omega)
    have hhalf : (if x.narrowBelow then 1 / 4 else 1 / 2 : ℚ) ≤ 1 / 2 := by split <;> norm_num
    have hlt : ((x.mantissa : ℚ) - 1 / 2) * 2 ^ x.exponent < 2 ^ 52 * 2 ^ x.exponent := by
      nlinarith
    have hlt := lt_of_mul_lt_mul_right hlt hpow.le
    have : (x.mantissa : ℚ) < (2 ^ 52 + 1 : Nat) := by
      push_cast
      linarith
    have : x.mantissa < 2 ^ 52 + 1 := by exact_mod_cast this
    omega
  rw [hx.narrow.mpr ⟨hmantissa, by omega⟩, if_pos rfl, hmantissa] at hle
  push_cast at hle
  have hexponent : x.exponent = e + 1 := by
    by_contra hne
    have hstep : (2 : ℚ) ^ e * 4 ≤ 2 ^ x.exponent := by
      rw [show (4 : ℚ) = 2 ^ (2 : Int) by norm_num, ← zpow_add₀ (by norm_num)]
      exact zpow_le_zpow_right₀ (by norm_num) (by omega)
    have hpow : (0 : ℚ) < 2 ^ e := by positivity
    nlinarith
  refine ⟨hmantissa, hexponent, le_trans (le_of_eq ?_) hle⟩
  rw [hexponent, zpow_add_one₀ (by norm_num)]
  ring

/-- **A fraction that rounds to a double** gives the bits of that double. -/
theorem nearestBits_of_rounds {n d : Nat} (hn : 0 < n) (hd : 0 < d) {x : Binary} (hx : x.IsDouble)
    (h : x.Rounds (n / d)) : nearestBits n d = bitsOf x.mantissa x.exponent := by
  obtain ⟨e, a, b, hbits, hb, hratio, hleast, hlt, hfull⟩ := exists_ratio hn hd
  rw [hbits]
  generalize (n : ℚ) / d = v at h hratio hlt hfull
  have hpow : (0 : ℚ) < 2 ^ e := by positivity
  rcases lt_trichotomy e x.exponent with hbelow | rfl | habove
  · -- the ratio is rounded up to a power of two, and the carry reaches the exponent
    obtain ⟨hmantissa, hexponent, hv⟩ := h.of_below hx hleast hbelow hlt
    have hround : roundDiv a b = 2 ^ 53 := by
      refine roundDiv_of_ratio hb ?_
      rw [if_pos (by decide), hratio, le_div_iff₀ hpow, div_le_iff₀ hpow]
      push_cast
      refine ⟨hv, ?_⟩
      linarith
    rw [hround, hmantissa, hexponent, bitsOf_carry hleast]
  · rw [roundDiv_of_rounds h hb hratio]
  · -- all that rounds to the double is below the next power of two
    exfalso
    have hstep : (2 : ℚ) ^ x.exponent * 2 ≤ 2 ^ e := by
      rw [← zpow_add_one₀ (by norm_num)]
      exact zpow_le_zpow_right₀ (by norm_num) habove
    have hleast := hx.least
    have hfull := hfull.resolve_right (by omega)
    have hupper := h.le.2
    rw [x.bounds.2] at hupper
    have hm : (x.mantissa : ℚ) ≤ 9007199254740991 := by exact_mod_cast Nat.le_of_lt_succ hx.lt
    have hpow : (0 : ℚ) < 2 ^ x.exponent := by positivity
    nlinarith

/-! ### Decimals -/

theorem Binary.pow_le_lower {x : Binary} (hx : x.IsDouble) : (2 : ℚ) ^ (-1075 : Int) ≤ x.lower := by
  have hm : (1 : ℚ) ≤ x.mantissa := by exact_mod_cast hx.pos
  have hhalf : (if x.narrowBelow then 1 / 4 else 1 / 2 : ℚ) ≤ 1 / 2 := by split <;> norm_num
  have hpow : (2 : ℚ) ^ (-1074 : Int) ≤ 2 ^ x.exponent := zpow_le_zpow_right₀ (by norm_num) hx.least
  have hleast : (0 : ℚ) < 2 ^ (-1074 : Int) := by positivity
  rw [x.bounds.1]
  calc (2 : ℚ) ^ (-1075 : Int) = 1 / 2 * 2 ^ (-1074 : Int) := by
        rw [show (-1075 : Int) = -1074 - 1 by norm_num, zpow_sub_one₀ (by norm_num)]
        ring
    _ ≤ (x.mantissa - if x.narrowBelow then 1 / 4 else 1 / 2) * 2 ^ x.exponent :=
        mul_le_mul (by linarith) hpow hleast.le (by linarith)

theorem Binary.upper_lt_pow {x : Binary} (hx : x.IsDouble) : x.upper < 2 ^ (1024 : Int) := by
  have hm : (x.mantissa : ℚ) ≤ 9007199254740991 := by exact_mod_cast Nat.le_of_lt_succ hx.lt
  have hpow : (2 : ℚ) ^ x.exponent ≤ 2 ^ (971 : Int) :=
    zpow_le_zpow_right₀ (by norm_num) hx.greatest
  have hpos : (0 : ℚ) < 2 ^ x.exponent := by positivity
  rw [x.bounds.2, show (1024 : Int) = 53 + 971 by norm_num, zpow_add₀ (by norm_num)]
  calc ((x.mantissa : ℚ) + 1 / 2) * 2 ^ x.exponent < 2 ^ (53 : Int) * 2 ^ x.exponent := by
        refine mul_lt_mul_of_pos_right ?_ hpos
        norm_num
        linarith
    _ ≤ 2 ^ (53 : Int) * 2 ^ (971 : Int) := mul_le_mul_of_nonneg_left hpow (by positivity)

/-- The powers of ten beyond which the answer is clear. -/
theorem pow_ten_lt : (10 : ℚ) ^ (-331 : Int) < 2 ^ (-1075 : Int) ∧
    (2 : ℚ) ^ (1024 : Int) < 10 ^ (330 : Int) := by
  have hstep (k : Nat) (hk : k ≠ 0) : ((2 : ℚ) ^ 13) ^ k < (10 ^ 4) ^ k :=
    pow_lt_pow_left₀ (by norm_num) (by norm_num) hk
  constructor
  · rw [zpow_neg, zpow_neg]
    refine inv_strictAnti₀ (by positivity) ?_
    calc (2 : ℚ) ^ (1075 : Int) = (2 ^ 13) ^ 82 * 2 ^ 9 := by rw [← pow_mul, ← pow_add]; rfl
      _ < (10 ^ 4) ^ 82 * 10 ^ 3 := mul_lt_mul'' (hstep 82 (by decide)) (by norm_num)
          (by positivity) (by positivity)
      _ = 10 ^ (331 : Int) := by rw [← pow_mul, ← pow_add]; rfl
  · calc (2 : ℚ) ^ (1024 : Int) ≤ 2 ^ (1027 : Int) :=
          zpow_le_zpow_right₀ (by norm_num) (by norm_num)
      _ = (2 ^ 13) ^ 79 := by rw [← pow_mul]; rfl
      _ < (10 ^ 4) ^ 79 := hstep 79 (by decide)
      _ = 10 ^ (316 : Int) := by rw [← pow_mul]; rfl
      _ ≤ 10 ^ (330 : Int) := zpow_le_zpow_right₀ (by norm_num) (by norm_num)

/-- A decimal lies between the powers of ten that its size gives. -/
theorem decimal_bounds {n : Nat} (hn : 0 < n) (e : Int) :
    (10 : ℚ) ^ (e + digitCount n - 1) ≤ n * 10 ^ e ∧
      (n : ℚ) * 10 ^ e < 10 ^ (e + digitCount n) := by
  have hpow : (0 : ℚ) < 10 ^ e := by positivity
  have hcount := digitCount_pos hn
  have hlow : (10 : ℚ) ^ (digitCount n - 1) ≤ n := by exact_mod_cast pow_digitCount_le hn
  have hhigh : (n : ℚ) < 10 ^ digitCount n := by exact_mod_cast lt_pow_digitCount n
  constructor
  · rw [show e + digitCount n - 1 = (digitCount n - 1 : Nat) + e by omega, zpow_add₀ (by norm_num),
      zpow_natCast]
    exact mul_le_mul_of_nonneg_right hlow hpow.le
  · rw [Int.add_comm, zpow_add₀ (by norm_num), zpow_natCast]
    exact mul_lt_mul_of_pos_right hhigh hpow

/-- **A decimal that rounds to a double** gives the bits of that double. -/
theorem decimalBits_of_rounds {n : Nat} {e : Int} {x : Binary} (hx : x.IsDouble)
    (h : x.Rounds (n * 10 ^ e)) : decimalBits n e = bitsOf x.mantissa x.exponent := by
  have hlower := (Binary.pow_le_lower hx).trans h.le.1
  have hupper := h.le.2.trans_lt (Binary.upper_lt_pow hx)
  have hn : 0 < n := by
    rcases Nat.eq_zero_or_pos n with rfl | hn
    · rw [Nat.cast_zero, zero_mul] at hlower
      exact absurd hlower (not_le.mpr (by positivity))
    · exact hn
  obtain ⟨hlow, hhigh⟩ := decimal_bounds hn e
  -- neither of the two answers that need no arithmetic applies
  have hsize₁ : ¬ e + digitCount n < -330 := fun hsize => by
    have : (10 : ℚ) ^ (e + digitCount n) ≤ 10 ^ (-331 : Int) :=
      zpow_le_zpow_right₀ (by norm_num) (by omega)
    linarith [pow_ten_lt.1]
  have hsize₂ : ¬ 330 < e + digitCount n := fun hsize => by
    have : (10 : ℚ) ^ (330 : Int) ≤ 10 ^ (e + digitCount n - 1) :=
      zpow_le_zpow_right₀ (by norm_num) (by omega)
    exact lt_asymm hupper (pow_ten_lt.2.trans_le (this.trans hlow))
  unfold decimalBits
  simp only
  rw [if_neg (by simp [hn.ne', hsize₁]), if_neg hsize₂]
  have hten (k : Nat) : 0 < tenTo k := Nat.pow_pos (by decide)
  refine nearestBits_of_rounds (Nat.mul_pos hn (hten _)) (hten _) hx ?_
  rw [Nat.cast_mul, cast_tenTo, cast_tenTo, pow_toNat 10 (by norm_num) e]
  have hpow : (10 : ℚ) ^ (-e).toNat ≠ 0 := by positivity
  convert h using 1
  field_simp

end TrafficWatch.Decimal
