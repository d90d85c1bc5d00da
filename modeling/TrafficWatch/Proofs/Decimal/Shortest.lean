import TrafficWatch.Decimal.Shortest
import TrafficWatch.Proofs.Double.Bits

/-!
# Decimal — Shortest

The digits of a double read back as that double.  A double stands for all numbers that round to it,
and `Binary.Rounds` says which these are: those no further away than half the distance to the
neighbours, the two halfway points only when the mantissa is even.  What `Binary.onGrid?` finds is
such a number (`rounds_of_onGrid?`); on a grid finer than half the distance to the neighbour above
it always finds one (`onGrid?_isSome`), and the grid of seventeen digits is as fine as that.  So the
shortest digits round to the double they are the digits of (`rounds_shortest`).
-/

namespace TrafficWatch.Decimal

/-- The number that digits stand for. -/
def Digits.value (d : Digits) : ℚ :=
  d.significand * 10 ^ d.exponent

namespace Binary

/-- The number that a double stands for. -/
def value (x : Binary) : ℚ :=
  x.mantissa * 2 ^ x.exponent

/-- The least number that may round to a double. -/
def lower (x : Binary) : ℚ :=
  (4 * x.mantissa - if x.narrowBelow then 1 else 2) * 2 ^ (x.exponent - 2)

/-- The greatest number that may round to a double. -/
def upper (x : Binary) : ℚ :=
  (4 * x.mantissa + 2) * 2 ^ (x.exponent - 2)

/-- A number rounds to a double. -/
def Rounds (x : Binary) (v : ℚ) : Prop :=
  if x.mantissa % 2 = 0 then x.lower ≤ v ∧ v ≤ x.upper else x.lower < v ∧ v < x.upper

theorem Rounds.le {x : Binary} {v : ℚ} (h : x.Rounds v) : x.lower ≤ v ∧ v ≤ x.upper := by
  unfold Rounds at h
  split at h
  · exact h
  · exact ⟨h.1.le, h.2.le⟩

end Binary

/-! ### Powers -/

/-- A power of a whole number is a fraction of two powers of natural numbers. -/
theorem pow_toNat (a : ℚ) (ha : a ≠ 0) (z : Int) : a ^ z.toNat = a ^ (-z).toNat * a ^ z := by
  rw [← zpow_natCast, ← zpow_natCast, ← zpow_add₀ ha]
  congr 1
  omega

theorem cast_tenTo (n : Nat) : (tenTo n : ℚ) = 10 ^ n := by
  rw [tenTo, Nat.pow_eq, Nat.cast_pow, Nat.cast_ofNat]

theorem cast_twoTo (n : Nat) : (twoTo n : ℚ) = 2 ^ n := by
  rw [twoTo, Nat.pow_eq, Nat.cast_pow, Nat.cast_ofNat]

/-! ### Grids -/

namespace Binary

/-- The common denominator of a grid and the quarters of a unit in the last binary place. -/
def scale (x : Binary) (place : Int) : ℚ :=
  10 ^ (-place).toNat * 2 ^ (2 - x.exponent).toNat

theorem scale_pos (x : Binary) (place : Int) : 0 < x.scale place := by
  unfold scale
  positivity

/-- A step of the grid, by the common denominator. -/
theorem cast_ten (x : Binary) (place : Int) :
    ((tenTo place.toNat * twoTo (2 - x.exponent).toNat : Nat) : ℚ) =
      x.scale place * 10 ^ place := by
  rw [Nat.cast_mul, cast_tenTo, cast_twoTo, pow_toNat 10 (by norm_num) place, scale]
  ring

/-- A quarter of a unit in the last binary place, by the common denominator. -/
theorem cast_two (x : Binary) (place : Int) :
    ((tenTo (-place).toNat * twoTo (x.exponent - 2).toNat : Nat) : ℚ) =
      x.scale place * 2 ^ (x.exponent - 2) := by
  rw [Nat.cast_mul, cast_tenTo, cast_twoTo, pow_toNat 2 (by norm_num) (x.exponent - 2), scale,
    Int.neg_sub]
  ring

variable {x : Binary}

theorem cast_point (x : Binary) (place : Int) (n : Nat) :
    ((n * (tenTo place.toNat * twoTo (2 - x.exponent).toNat) : Nat) : ℚ) =
      x.scale place * (n * 10 ^ place) := by
  rw [Nat.cast_mul, cast_ten]
  ring

theorem cast_lowest (hx : 0 < x.mantissa) (place : Int) :
    (((4 * x.mantissa - if x.narrowBelow then 1 else 2) *
      (tenTo (-place).toNat * twoTo (x.exponent - 2).toNat) : Nat) : ℚ) =
        x.scale place * x.lower := by
  have hsub : ((4 * x.mantissa - if x.narrowBelow then 1 else 2 : Nat) : ℚ) =
      4 * x.mantissa - if x.narrowBelow then 1 else 2 := by
    rw [Nat.cast_sub (by split <;> omega)]
    push_cast
    rfl
  rw [Nat.cast_mul, cast_two, hsub, lower]
  ring

theorem cast_highest (x : Binary) (place : Int) :
    (((4 * x.mantissa + 2) * (tenTo (-place).toNat * twoTo (x.exponent - 2).toNat) : Nat) : ℚ) =
      x.scale place * x.upper := by
  rw [Nat.cast_mul, cast_two, upper]
  push_cast
  ring

theorem cast_le_iff {place : Int} {a b : Nat} {u v : ℚ} (ha : (a : ℚ) = x.scale place * u)
    (hb : (b : ℚ) = x.scale place * v) : a ≤ b ↔ u ≤ v := by
  rw [← Nat.cast_le (α := ℚ), ha, hb, mul_le_mul_iff_right₀ (x.scale_pos place)]

theorem cast_lt_iff {place : Int} {a b : Nat} {u v : ℚ} (ha : (a : ℚ) = x.scale place * u)
    (hb : (b : ℚ) = x.scale place * v) : a < b ↔ u < v := by
  rw [← Nat.cast_lt (α := ℚ), ha, hb, mul_lt_mul_iff_right₀ (x.scale_pos place)]

/-- **What is found on a grid rounds to the double.** -/
theorem rounds_of_onGrid? (hx : 0 < x.mantissa) {tie : Tie} {place : Int} {n : Nat}
    (h : x.onGrid? tie place = some n) : x.Rounds (n * 10 ^ place) := by
  unfold onGrid? at h
  extract_lets ten two value lowest highest readsBack below at h
  have hreads (k : Nat) (hk : readsBack k = true) : x.Rounds (k * 10 ^ place) := by
    simp only [readsBack] at hk
    unfold Rounds
    split at hk
    · rw [if_pos ‹_›]
      rwa [Bool.and_eq_true, decide_eq_true_eq, decide_eq_true_eq,
        cast_le_iff (cast_lowest hx place) (cast_point x place k),
        cast_le_iff (cast_point x place k) (cast_highest x place)] at hk
    · rw [if_neg ‹_›]
      rwa [Bool.and_eq_true, decide_eq_true_eq, decide_eq_true_eq,
        cast_lt_iff (cast_lowest hx place) (cast_point x place k),
        cast_lt_iff (cast_point x place k) (cast_highest x place)] at hk
  -- only the two neighbours of the double on the grid are ever taken
  have hneighbours : ∀ k, (k = below ∧ readsBack below = true ∨
      k = below + 1 ∧ readsBack (below + 1) = true) → n = k → x.Rounds (n * 10 ^ place) := by
    rintro k (⟨rfl, hk⟩ | ⟨rfl, hk⟩) rfl
    · exact hreads _ hk
    · exact hreads _ hk
  split at h
  · cases h
  · exact hneighbours _ (.inl ⟨rfl, ‹_›⟩) (Option.some.inj h).symm
  · exact hneighbours _ (.inr ⟨rfl, ‹_›⟩) (Option.some.inj h).symm
  · split at h
    · exact hneighbours _ (.inl ⟨rfl, ‹_›⟩) (Option.some.inj h).symm
    · exact hneighbours _ (.inr ⟨rfl, ‹_›⟩) (Option.some.inj h).symm
    · split at h
      · exact hneighbours _ (.inr ⟨rfl, ‹_›⟩) (Option.some.inj h).symm
      · rcases Nat.mod_two_eq_zero_or_one below with heven | hodd
        · rw [if_pos heven] at h
          exact hneighbours _ (.inl ⟨rfl, ‹_›⟩) (Option.some.inj h).symm
        · rw [if_neg (by omega)] at h
          exact hneighbours _ (.inr ⟨rfl, ‹_›⟩) (Option.some.inj h).symm

/-- On a grid that is fine enough, the neighbour above the double rounds to it. -/
theorem onGrid?_isSome (tie : Tie) {place : Int} (hfine : (10 : ℚ) ^ place < 2 ^ (x.exponent - 1)) :
    (x.onGrid? tie place).isSome := by
  unfold onGrid?
  extract_lets ten two value lowest highest readsBack below
  -- the gap to the midpoint above is `2 * two`, so a step of the grid ends before it
  have hstep : ten < 2 * two := by
    have htwo : ((2 * two : Nat) : ℚ) = x.scale place * 2 ^ (x.exponent - 1) := by
      rw [Nat.cast_mul, cast_two, show x.exponent - 1 = x.exponent - 2 + 1 by omega,
        zpow_add₀ (by norm_num)]
      push_cast
      ring
    exact (cast_lt_iff (cast_ten x place) htwo).mpr hfine
  have habove : readsBack (below + 1) = true := by
    have hten : 0 < ten := Nat.mul_pos (Nat.pow_pos (by decide)) (Nat.pow_pos (by decide))
    have hbelow : below * ten ≤ value := Nat.div_mul_le_self value ten
    have hvalue : value < (below + 1) * ten := by
      rw [Nat.mul_comm]
      exact Nat.lt_mul_div_succ value hten
    have hlow : lowest < (below + 1) * ten :=
      (Nat.mul_le_mul_right two (Nat.sub_le _ _)).trans_lt hvalue
    have hhigh : (below + 1) * ten < highest := by
      change _ < (4 * x.mantissa + 2) * two
      rw [Nat.add_mul, Nat.add_mul, Nat.one_mul]
      exact Nat.add_lt_add_of_le_of_lt hbelow hstep
    simp only [readsBack]
    split
    · simp [hlow.le, hhigh.le]
    · simp [hlow, hhigh]
  rw [habove]
  split
  · simp_all
  · simp_all
  · rfl
  · split
    · rfl
    · rfl
    · split <;> rfl

end Binary

/-! ### The leading digit -/

theorem digitCount_zero : digitCount 0 = 0 := by
  rw [digitCount, if_pos rfl]

theorem digitCount_of_pos {n : Nat} (h : 0 < n) : digitCount n = digitCount (n / 10) + 1 := by
  rw [digitCount, if_neg (by omega)]

theorem lt_pow_digitCount (n : Nat) : n < 10 ^ digitCount n := by
  induction n using Nat.strongRecOn with
  | ind n ih =>
      rcases Nat.eq_zero_or_pos n with rfl | h
      · rw [digitCount_zero]
        decide
      · have := ih (n / 10) (by omega)
        rw [digitCount_of_pos h, Nat.pow_succ]
        omega

theorem pow_digitCount_le {n : Nat} (h : 0 < n) : 10 ^ (digitCount n - 1) ≤ n := by
  induction n using Nat.strongRecOn with
  | ind n ih =>
      rw [digitCount_of_pos h, Nat.add_sub_cancel]
      rcases Nat.eq_zero_or_pos (n / 10) with hzero | hpos
      · rw [hzero, digitCount_zero]
        exact h
      · have := ih (n / 10) (by omega) hpos
        have hcount : digitCount (n / 10) = digitCount (n / 10) - 1 + 1 := by
          rw [digitCount_of_pos hpos]
          omega
        rw [hcount, Nat.pow_succ]
        omega

theorem digitCount_pos {n : Nat} (h : 0 < n) : 0 < digitCount n := by
  rw [digitCount_of_pos h]
  exact Nat.succ_pos _

/-- A quotient is as great as its leading digit says. -/
theorem pow_leadingExponent_le {n d : Nat} (hn : 0 < n) (hd : 0 < d) :
    (10 : ℚ) ^ leadingExponent n d ≤ n / d := by
  have hdpos : (0 : ℚ) < d := Nat.cast_pos.mpr hd
  have hnpos : (0 : ℚ) < n := Nat.cast_pos.mpr hn
  unfold leadingExponent
  split
  · rename_i h
    have hquot : 0 < n / d := Nat.div_pos h hd
    have hcount := digitCount_pos hquot
    have hpow : 10 ^ (digitCount (n / d) - 1) * d ≤ n :=
      (Nat.mul_le_mul_right d (pow_digitCount_le hquot)).trans (Nat.div_mul_le_self n d)
    rw [show (digitCount (n / d) : Int) - 1 = (digitCount (n / d) - 1 : Nat) by omega, zpow_natCast,
      le_div_iff₀ hdpos]
    exact_mod_cast hpow
  · have hpow : d ≤ n * 10 ^ digitCount ((d - 1) / n) := by
      have := (Nat.div_lt_iff_lt_mul hn).mp (lt_pow_digitCount ((d - 1) / n))
      rw [Nat.mul_comm]
      omega
    rw [zpow_neg, zpow_natCast, inv_le_iff_one_le_mul₀ (by positivity), div_mul_eq_mul_div,
      le_div_iff₀ hdpos, one_mul]
    exact_mod_cast hpow

theorem Binary.pow_leading_le {x : Binary} (hx : 0 < x.mantissa) :
    (10 : ℚ) ^ x.leading ≤ x.value := by
  have hone (n : Nat) : 0 < twoTo n := Nat.pow_pos (by decide)
  refine (pow_leadingExponent_le (Nat.mul_pos hx (hone _)) (hone _)).trans_eq ?_
  rw [Nat.cast_mul, cast_twoTo, cast_twoTo, pow_toNat 2 (by norm_num), value]
  field_simp

/-! ### The shortest digits -/

theorem Digits.value_trimmed (d : Digits) : d.trimmed.value = d.value := by
  induction d using Digits.trimmed.induct with
  | case1 d h ih =>
      rw [Digits.trimmed, if_pos h, ih, value, value]
      simp only
      have hten : (d.significand : ℚ) = (d.significand / 10 : Nat) * 10 := by
        exact_mod_cast (Nat.div_mul_cancel (Nat.dvd_of_mod_eq_zero h.2)).symm
      rw [zpow_add_one₀ (by norm_num), hten]
      ring
  | case2 d h => rw [Digits.trimmed, if_neg h]

/-- The grid of seventeen digits is fine enough. -/
theorem Binary.seventeen {x : Binary} (hx : x.IsDouble) :
    (10 : ℚ) ^ (x.leading - 17) < 2 ^ (x.exponent - 1) := by
  have hlead := pow_leading_le hx.pos
  have hm : (x.mantissa : ℚ) < 2 ^ 53 := by exact_mod_cast hx.lt
  have hpos : (0 : ℚ) < 2 ^ (x.exponent - 1) := by positivity
  have hvalue : x.value = 2 * x.mantissa * 2 ^ (x.exponent - 1) := by
    rw [value, show x.exponent = x.exponent - 1 + 1 by omega, zpow_add_one₀ (by norm_num)]
    simp only [add_sub_cancel_right]
    ring
  rw [zpow_sub₀ (by norm_num), div_lt_iff₀ (by positivity)]
  calc (10 : ℚ) ^ x.leading ≤ 2 * x.mantissa * 2 ^ (x.exponent - 1) := hlead.trans_eq hvalue
    _ < 10 ^ 17 * 2 ^ (x.exponent - 1) := by
      refine mul_lt_mul_of_pos_right ?_ hpos
      linarith
    _ = 2 ^ (x.exponent - 1) * 10 ^ (17 : Int) := by
      rw [mul_comm]
      norm_num

/-- **The shortest digits of a double round to it.** -/
theorem rounds_shortest (tie : Tie) {x : Binary} (hx : x.IsDouble) :
    x.Rounds (shortest tie x).value := by
  unfold shortest
  extract_lets first found
  rw [Digits.value_trimmed]
  obtain ⟨n, hn⟩ := Option.isSome_iff_exists.mp (x.onGrid?_isSome tie (Binary.seventeen hx))
  obtain ⟨d, hd⟩ : ∃ d, found = some d := by
    refine Option.isSome_iff_exists.mp (List.findSome?_isSome_iff.mpr ⟨17, by simp, ?_⟩)
    change (((x.onGrid? tie (first - 17)).map _)).isSome
    rw [hn]
    rfl
  rw [hd, Option.getD_some]
  obtain ⟨k, -, hk⟩ := List.exists_of_findSome?_eq_some hd
  obtain ⟨m, hm, rfl⟩ := Option.map_eq_some_iff.mp hk
  exact Binary.rounds_of_onGrid? hx.pos hm

end TrafficWatch.Decimal
