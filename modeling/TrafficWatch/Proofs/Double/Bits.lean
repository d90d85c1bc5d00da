import TrafficWatch.Decimal.Binary
import TrafficWatch.Proofs.Double.Sign

/-!
# Double — Bits

A double and its sixty-four bits.  A double is put together again from its sign and its low bits
(`ofSignAndBits_lowBits`).  The low bits of a finite double are zero or those of a fraction, from
which `Decimal.bitsOf` gives them back (`magnitude_of_isFinite`).
-/

namespace TrafficWatch

namespace Double

open Float.Model (Format UnpackedFloat)
open Float.Model.UnpackedFloat (Sign packComponents unpackExponent unpackMantissa)

/-! ### Unpacking -/

theorem toNat_append_one (m : BitVec 52) : (1#1 ++ m).toNat = 2 ^ 52 + m.toNat := by
  rw [BitVec.toNat_append, ← Nat.shiftLeft_add_eq_or_of_lt m.isLt]
  rfl

/-- The parts of bits. -/
theorem unpack_packComponents (s : Sign) (e : BitVec 11) (m : BitVec 52) :
    UnpackedFloat.unpack Format.binary64 (packComponents Format.binary64 s e m) =
      if e = -1#11 then if m = 0#52 then .infinity s else .notANumber
      else if e = 0#11 then if h : m = 0#52 then .zero s else
        .finite s m.toNat (-1074) (by simpa [BitVec.toNat_pos, BitVec.pos_iff_ne_zero] using h)
      else .finite s (2 ^ 52 + m.toNat) (e.toNat - 1075) (by omega) := by
  unfold UnpackedFloat.unpack
  simp only [UnpackedFloat.unpackMantissa_packComponents,
    UnpackedFloat.unpackExponent_packComponents, UnpackedFloat.unpackSign_packComponents,
    Sign.ofBitVec_toBitVec]
  split
  · rfl
  split
  · rename_i he
    subst he
    rfl
  · congr 1
    exact toNat_append_one m

/-! ### The bits as numbers -/

/-- The bits of a double but its sign. -/
def lowBits (x : Float) : Nat :=
  x.toBits.toNat % 2 ^ 63

theorem ofSignAndBits_lowBits (x : Float) :
    Decimal.ofSignAndBits (Decimal.isNegative x) (lowBits x) = x := by
  have hlt : x.toBits.toNat < 2 ^ 64 := x.toBits.toNat_lt
  have hbits : (if Decimal.isNegative x then twoTo 63 + lowBits x else lowBits x) =
      x.toBits.toNat := by
    change (if decide (x.toBits.toNat / 2 ^ 63 % 2 = 1) = true then
      2 ^ 63 + x.toBits.toNat % 2 ^ 63 else x.toBits.toNat % 2 ^ 63) = _
    split
    · rename_i h
      have := of_decide_eq_true h
      omega
    · rename_i h
      have : ¬ x.toBits.toNat / 2 ^ 63 % 2 = 1 := fun h' => h (decide_eq_true h')
      omega
  rw [Decimal.ofSignAndBits, hbits, UInt64.ofNat_toNat, Float.ofBits_toBits]

theorem toNat_unpackExponent (b : BitVec 64) :
    (@unpackExponent Format.binary64 b).toNat = b.toNat / 2 ^ 52 % 2 ^ 11 := by
  rw [unpackExponent, BitVec.toNat_cast, BitVec.extractLsb_toNat, Nat.shiftRight_eq_div_pow]
  rfl

/-- A double is finite unless all bits of its exponent are set. -/
theorem isFinite_iff (x : Float) : x.isFinite = true ↔ x.toBits.toNat / 2 ^ 52 % 2 ^ 11 ≠ 2047 := by
  have hbits : x.toBits.toNat / 2 ^ 52 % 2 ^ 11 =
      (@unpackExponent Format.binary64 x.toBits.toBitVec).toNat :=
    (toNat_unpackExponent _).symm
  have hall : @unpackExponent Format.binary64 x.toBits.toBitVec = -1#11 ↔
      (@unpackExponent Format.binary64 x.toBits.toBitVec).toNat = 2047 :=
    ⟨fun h => by rw [h]; rfl, fun h => BitVec.eq_of_toNat_eq h⟩
  rw [hbits, ne_eq, ← hall]
  change (UnpackedFloat.unpack Format.binary64 x.toBits.toBitVec).isFinite = true ↔ _
  rw [← @UnpackedFloat.packComponents_unpackSign_unpackExponent_unpackMantissa .binary64
    x.toBits.toBitVec, unpack_packComponents, UnpackedFloat.unpackExponent_packComponents]
  split
  · rename_i he
    split <;> exact iff_of_false Bool.false_ne_true fun hne => hne he
  · rename_i he
    split
    · split <;> exact iff_of_true rfl he
    · exact iff_of_true rfl he

end Double

/-! ### The fraction in the bits -/

namespace Decimal

/-- A positive fraction with at most fifty-three bits, as it stands in the bits of a double. -/
structure Binary.IsDouble (x : Binary) : Prop where
  pos : 0 < x.mantissa
  lt : x.mantissa < 2 ^ 53
  least : -1074 ≤ x.exponent
  greatest : x.exponent ≤ 971
  /-- Only the least exponent goes with fewer bits. -/
  full : 2 ^ 52 ≤ x.mantissa ∨ x.exponent = -1074
  narrow : x.narrowBelow = true ↔ x.mantissa = 2 ^ 52 ∧ -1074 < x.exponent

/-- The low bits of a fraction, when they are not those of infinity. -/
theorem bitsOf_eq {mantissa : Nat} {exponent : Int} (hm : mantissa < 2 ^ 53) (he : exponent ≤ 971) :
    bitsOf mantissa exponent = (exponent + 1074).toNat * 2 ^ 52 + mantissa := by
  unfold bitsOf twoTo
  rw [Nat.pow_eq, Nat.min_eq_left]
  omega

/-- Bits of which not all in the exponent are set are those of zero or of a fraction. -/
theorem ofBits_spec {bits : Nat} (h : bits / 2 ^ 52 % 2 ^ 11 ≠ 2047) :
    Magnitude.ofBits bits = .zero ∧ bits % 2 ^ 63 = 0 ∨
      ∃ v : Binary, Magnitude.ofBits bits = .finite v ∧ v.IsDouble ∧
        bitsOf v.mantissa v.exponent = bits % 2 ^ 63 := by
  unfold Magnitude.ofBits twoTo
  simp only [Nat.pow_eq]
  rw [if_neg h]
  split
  · rename_i hbiased
    split
    · exact .inl ⟨rfl, by omega⟩
    · refine .inr ⟨_, rfl, ⟨by simp only; omega, by simp only; omega, by simp, by simp, by simp,
        by simp⟩, ?_⟩
      rw [bitsOf_eq (by simp only; omega) (by simp)]
      simp only
      omega
  · rename_i hbiased
    refine .inr ⟨_, rfl, ⟨?_, ?_, ?_, ?_, ?_, ?_⟩, ?_⟩ <;> simp only
    · omega
    · omega
    · omega
    · omega
    · omega
    · simp only [Bool.and_eq_true, decide_eq_true_eq]
      omega
    · rw [bitsOf_eq (by omega) (by omega)]
      omega

end Decimal

namespace Double

/-- **The low bits of a finite double** are zero or those of a fraction. -/
theorem magnitude_of_isFinite {x : Float} (h : x.isFinite = true) :
    Decimal.magnitude x = .zero ∧ lowBits x = 0 ∨
      ∃ v : Decimal.Binary, Decimal.magnitude x = .finite v ∧ v.IsDouble ∧
        Decimal.bitsOf v.mantissa v.exponent = lowBits x :=
  Decimal.ofBits_spec ((isFinite_iff x).mp h)

end Double

end TrafficWatch
