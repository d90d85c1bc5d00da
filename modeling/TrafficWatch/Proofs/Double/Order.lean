import TrafficWatch.Proofs.Double.Parts
import TrafficWatch.TotalOrder

/-!
# Double — Order

The total order extends the order of numbers (`key_lt_key`): what is greater as a number stands
behind.  The place of a number is that of its parts without the sign (`rank`), mirrored if there is a
sign (`place`), and of parts that are canonical the exponent is compared before the mantissa.
-/

namespace TrafficWatch.Double

open Float.Model (UnpackedFloat)
open Float.Model.UnpackedFloat (Sign)

/-! ### Places -/

/-- How many doubles without a sign stand before parts. -/
def rank : UnpackedFloat → Nat
  | .notANumber | .infinity _ => 2047 * 2 ^ 52
  | .zero _ => 0
  | .finite _ m e _ => (e + 1074).toNat * 2 ^ 52 + m

/-- The place of the double that has so many before it, but for its sign. -/
def place : Sign → Nat → Int
  | .positive, n => n
  | .negative, n => -1 - n

theorem key_eq {x : Float} {s : Sign} {n : Nat} (h : x.toBits.toNat = s.toBitVec.toNat * 2 ^ 63 + n)
    (hn : n < 2 ^ 63) : TotalOrder.key x = place s n := by
  change (if x.toBits.toNat < 2 ^ 63 then (x.toBits.toNat : Int) else 2 ^ 63 - 1 - x.toBits.toNat) = _
  cases s with
  | positive =>
    have h : x.toBits.toNat = n := by rw [h]; exact Nat.zero_add n
    rw [h, if_pos hn]
    rfl
  | negative =>
    have h : x.toBits.toNat = 2 ^ 63 + n := h
    rw [h, if_neg (by omega)]
    simp only [place]
    omega

/-- **The place of a number** in the total order. -/
theorem key_of_sign? {x : Float} {s : Sign} (h : sign? x = some s) :
    TotalOrder.key x = place s (rank (parts x)) := by
  obtain ⟨s', e, m, hparts, hbits⟩ := exists_components x
  have hm := m.isLt
  have he := e.isLt
  rw [key_eq hbits (by omega)]
  unfold sign? at h
  rw [hparts, unpack_packComponents] at h ⊢
  split at h
  · split at h
    · cases h
      rename_i he hm
      subst he hm
      rfl
    · cases h
  · split at h
    · split at h
      · cases h
        rename_i he hm
        subst he hm
        rfl
      · cases h
        rename_i he hm
        subst he
        rw [dif_neg hm]
        rfl
    · rename_i hinfinite hleast
      have hpos : e.toNat ≠ 0 := fun heq => hleast (BitVec.eq_of_toNat_eq heq)
      cases h
      rw [if_neg hinfinite, if_neg hleast]
      refine congrArg (place s) ?_
      simp only [rank]
      omega

theorem rank_lt_infinity {m : Nat} {e : Int} (h : IsCanonical m e) :
    (e + 1074).toNat * 2 ^ 52 + m < 2047 * 2 ^ 52 := by
  have := h.lt
  have := h.greatest
  omega

/-- The exponent comes before the mantissa. -/
theorem rank_lt {m n : Nat} {e f : Int} (hm : IsCanonical m e) (hn : IsCanonical n f)
    (h : (compare e f).then (compare m n) = .lt) :
    (e + 1074).toNat * 2 ^ 52 + m < (f + 1074).toNat * 2 ^ 52 + n := by
  have hlt := hm.lt
  have hleast := hm.least
  have hfull := hn.full
  rcases Ordering.then_eq_lt.mp h with he | ⟨he, hmn⟩
  · have he := Int.compare_eq_lt.mp he
    omega
  · have he := Int.compare_eq_eq.mp he
    have hmn := Nat.compare_eq_lt.mp hmn
    omega

/-! ### Greater numbers -/

/-- Parts as they stand in the bits of a double, if they are finite. -/
def IsPacked (u : UnpackedFloat) : Prop :=
  ∀ s m e h, u = .finite s m e h → IsCanonical m e

theorem exists_sign_of_compare {u v : UnpackedFloat} {o : Ordering} (h : u.compare v = some o) :
    (∃ s, signOfParts? u = some s) ∧ ∃ t, signOfParts? v = some t := by
  cases u <;> cases v <;>
    first
    | exact ⟨⟨_, rfl⟩, _, rfl⟩
    | cases h

/-- Of two numbers without a sign, the greater one has more doubles before it. -/
theorem rank_lt_of_positive {u v : UnpackedFloat} (hu : IsPacked u) (hv : IsPacked v)
    (hs : signOfParts? u = some .positive) (ht : signOfParts? v = some .positive)
    (h : u.compare v = some .lt) : rank u < rank v := by
  cases u <;> cases v <;> cases hs <;> cases ht
  case zero.infinity => exact Nat.zero_lt_of_ne_zero (by decide)
  case zero.finite n f hn => exact Nat.lt_of_lt_of_le hn (Nat.le_add_left ..)
  case finite.infinity m e hm => exact rank_lt_infinity (hu _ _ _ _ rfl)
  case finite.finite m e hm n f hn =>
    exact rank_lt (hu _ _ _ _ rfl) (hv _ _ _ _ rfl) (Option.some.inj h)
  all_goals cases h

/-- Of two numbers with a sign, the greater one has fewer doubles before it. -/
theorem rank_lt_of_negative {u v : UnpackedFloat} (hu : IsPacked u) (hv : IsPacked v)
    (hs : signOfParts? u = some .negative) (ht : signOfParts? v = some .negative)
    (h : u.compare v = some .lt) : rank v < rank u := by
  cases u <;> cases v <;> cases hs <;> cases ht
  case infinity.zero => exact Nat.zero_lt_of_ne_zero (by decide)
  case finite.zero m e hm => exact Nat.lt_of_lt_of_le hm (Nat.le_add_left ..)
  case infinity.finite n f hn => exact rank_lt_infinity (hv _ _ _ _ rfl)
  case finite.finite m e hm n f hn =>
    refine rank_lt (hv _ _ _ _ rfl) (hu _ _ _ _ rfl) ?_
    rw [compare_then_swap]
    exact Option.some.inj h
  all_goals cases h

/-- No number without a sign is below one with a sign. -/
theorem compare_ne_lt {u v : UnpackedFloat} (hs : signOfParts? u = some .positive)
    (ht : signOfParts? v = some .negative) : u.compare v ≠ some .lt := by
  cases u <;> cases v <;> cases hs <;> cases ht <;> exact nofun

/-- **The total order extends the order of numbers.** -/
theorem key_lt_key {x y : Float} (h : x < y) : TotalOrder.key x < TotalOrder.key y := by
  rw [lt_iff] at h
  have hx : IsPacked (parts x) := fun _ _ _ _ => isCanonical_of_parts
  have hy : IsPacked (parts y) := fun _ _ _ _ => isCanonical_of_parts
  obtain ⟨⟨s, hs⟩, t, ht⟩ := exists_sign_of_compare h
  rw [key_of_sign? hs, key_of_sign? ht]
  cases s with
  | positive =>
      cases t with
      | positive => exact Int.ofNat_lt.mpr (rank_lt_of_positive hx hy hs ht h)
      | negative => exact absurd h (compare_ne_lt hs ht)
  | negative =>
      cases t with
      | positive =>
          simp only [place]
          omega
      | negative =>
          have := rank_lt_of_negative hx hy hs ht h
          simp only [place]
          omega

end TrafficWatch.Double
