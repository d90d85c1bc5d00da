import TrafficWatch.Proofs.Double.Bits

/-!
# Double — Parts

Taking a double apart and packing the parts again.  What stands in the bits of a double is canonical
(`isCanonical_of_parts`), and what is canonical comes out of the bits as it went in (`parts_pack`).
Packing the parts of a double gives that double (`pack_parts`).
-/

namespace TrafficWatch.Double

open Float.Model (Format UnpackedFloat)
open Float.Model.UnpackedFloat (Sign packComponents)

/-! ### Bits -/

theorem toNat_packComponents (s : Sign) (e : BitVec 11) (m : BitVec 52) :
    (packComponents Format.binary64 s e m).toNat =
      s.toBitVec.toNat * 2 ^ 63 + (e.toNat * 2 ^ 52 + m.toNat) := by
  have hm := m.isLt
  have he := e.isLt
  unfold packComponents
  rw [BitVec.toNat_append, BitVec.toNat_append, ← Nat.shiftLeft_add_eq_or_of_lt hm,
    ← Nat.shiftLeft_add_eq_or_of_lt he, Nat.shiftLeft_eq, Nat.shiftLeft_eq]
  ring

/-- A double is put together from a sign, an exponent and a mantissa. -/
theorem exists_components (x : Float) : ∃ (s : Sign) (e : BitVec 11) (m : BitVec 52),
    parts x = UnpackedFloat.unpack Format.binary64 (packComponents Format.binary64 s e m) ∧
      x.toBits.toNat = s.toBitVec.toNat * 2 ^ 63 + (e.toNat * 2 ^ 52 + m.toNat) := by
  have h := @UnpackedFloat.packComponents_unpackSign_unpackExponent_unpackMantissa .binary64
    x.toBits.toBitVec
  refine ⟨_, _, _, congrArg (UnpackedFloat.unpack Format.binary64) h.symm, ?_⟩
  exact (congrArg BitVec.toNat h).symm.trans (toNat_packComponents _ _ _)

/-! ### Canonical parts -/

/-- A mantissa and an exponent as they stand in the bits of a double. -/
structure IsCanonical (m : Nat) (e : Int) : Prop where
  lt : m < 2 ^ 53
  least : -1074 ≤ e
  greatest : e ≤ 971
  /-- Only the least exponent goes with fewer bits. -/
  full : 2 ^ 52 ≤ m ∨ e = -1074

/-- What stands in the bits of a double is canonical. -/
theorem isCanonical_of_parts {x : Float} {s : Sign} {m : Nat} {e : Int} {h : 0 < m}
    (hx : parts x = .finite s m e h) : IsCanonical m e := by
  obtain ⟨s', e', m', hparts, -⟩ := exists_components x
  have hm := m'.isLt
  have he := e'.isLt
  rw [hx, unpack_packComponents] at hparts
  split at hparts
  · split at hparts <;> cases hparts
  · rename_i hinfinite
    have hlt : e'.toNat ≠ 2047 := fun heq => hinfinite (BitVec.eq_of_toNat_eq heq)
    split at hparts
    · split at hparts <;> cases hparts
      exact ⟨by omega, by omega, by omega, .inr rfl⟩
    · rename_i hleast
      have hpos : e'.toNat ≠ 0 := fun heq => hleast (BitVec.eq_of_toNat_eq heq)
      cases hparts
      exact ⟨by omega, by omega, by omega, .inl (by omega)⟩

theorem log2_eq {m k : Nat} (hlow : 2 ^ k ≤ m) (hhigh : m < 2 ^ (k + 1)) : m.log2 = k :=
  (Nat.log2_eq_iff (Nat.ne_of_gt (Nat.lt_of_lt_of_le (Nat.two_pow_pos k) hlow))).mpr ⟨hlow, hhigh⟩

theorem ofNat_ne_ones {n : Nat} (h : n < 2047) : BitVec.ofNat 11 n ≠ -1#11 := fun heq => by
  have := congrArg BitVec.toNat heq
  rw [BitVec.toNat_ofNat] at this
  change n % 2048 = 2047 at this
  omega

/-- The bits of what is not too great. -/
theorem pack_eq_packComponents (s : Sign) {m : Nat} {e : Int} (hm : 0 < m) (h : e ≤ 971) :
    UnpackedFloat.pack .binary64 (.finite s m e hm) =
      packComponents .binary64 s
        (if m.log2 + 1 = 53 then BitVec.ofNat 11 (e + 1075).toNat else 0#11)
        (BitVec.ofNat 52 m) := by
  have hbiased : (e + (Format.binary64.exponentBias : Int) +
      (Format.binary64.mantissaBitsWithoutImplicit : Int)).toNat = (e + 1075).toNat := by
    change (e + 1023 + 52).toNat = _
    omega
  have hexponents : ¬ 2 ^ Format.binary64.exponentBits ≤ (e + 1075).toNat + 1 := by
    change ¬ 2048 ≤ (e + 1075).toNat + 1
    omega
  simp only [UnpackedFloat.pack, hbiased, if_neg hexponents]
  change (if m.log2 + 1 = 53 then _ else _) = _
  split <;> rfl

/-- **What is canonical is not changed by packing.** -/
theorem parts_pack (s : Sign) {m : Nat} {e : Int} (hm : 0 < m) (h : IsCanonical m e) :
    parts (pack (.finite s m e hm)) = .finite s m e hm := by
  obtain ⟨hlt, hleast, hgreatest, hfull⟩ := h
  change UnpackedFloat.unpack Format.binary64 (UnpackedFloat.pack Format.binary64 _) = _
  rw [pack_eq_packComponents s hm hgreatest]
  rcases Nat.lt_or_ge m (2 ^ 52) with hsmall | hbig
  · have he : e = -1074 := hfull.resolve_left (Nat.not_le.mpr hsmall)
    have hlog : ¬ m.log2 + 1 = 53 := by
      have := (Nat.log2_lt (Nat.ne_of_gt hm)).mpr hsmall
      omega
    have hmantissa : (BitVec.ofNat 52 m).toNat = m := Nat.mod_eq_of_lt hsmall
    have hzero : ¬ BitVec.ofNat 52 m = 0#52 := fun heq => by
      have := congrArg BitVec.toNat heq
      rw [hmantissa] at this
      exact Nat.ne_of_gt hm this
    rw [if_neg hlog, unpack_packComponents, if_neg (by decide), if_pos rfl, dif_neg hzero]
    simp only [hmantissa, he]
  · have hlog : m.log2 + 1 = 53 := by rw [log2_eq hbig hlt]
    have hinfinite : BitVec.ofNat 11 (e + 1075).toNat ≠ -1#11 := ofNat_ne_ones (by omega)
    have hexponent : (BitVec.ofNat 11 (e + 1075).toNat).toNat = (e + 1075).toNat :=
      Nat.mod_eq_of_lt (by omega)
    have hnormal : ¬ BitVec.ofNat 11 (e + 1075).toNat = 0#11 := fun heq => by
      have := congrArg BitVec.toNat heq
      rw [hexponent] at this
      change (e + 1075).toNat = 0 at this
      omega
    have hmantissa : 2 ^ 52 + (BitVec.ofNat 52 m).toNat = m := by
      rw [BitVec.toNat_ofNat]
      omega
    rw [if_pos hlog, unpack_packComponents, if_neg hinfinite, if_neg hnormal]
    simp only [hmantissa, hexponent]
    congr 1
    omega

/-- The parts of a double make up that double. -/
theorem pack_parts (x : Float) : pack (parts x) = x := by
  obtain ⟨⟨bits, hvalid⟩⟩ := x
  have hbits := UnpackedFloat.pack_unpack_of_valid hvalid
  refine congrArg Float.ofModel ?_
  simp only [Float.Model.pack, parts, Float.Model.unpack, Float.Model.mk.injEq]
  exact congrArg UInt64.ofBitVec hbits

theorem isFinite_pack_zero (s : Sign) : (pack (.zero s)).isFinite = true := by
  cases s <;> rfl

/-- What is not too great is finite once it is packed. -/
theorem isFinite_pack (s : Sign) {m : Nat} {e : Int} (hm : 0 < m) (h : e ≤ 971) :
    (pack (.finite s m e hm)).isFinite = true := by
  change (UnpackedFloat.unpack Format.binary64 (UnpackedFloat.pack Format.binary64 _)).isFinite =
    true
  have hinfinite : BitVec.ofNat 11 (e + 1075).toNat ≠ -1#11 := ofNat_ne_ones (by omega)
  rw [pack_eq_packComponents s hm h]
  split
  · rw [unpack_packComponents, if_neg hinfinite]
    split
    · split <;> rfl
    · rfl
  · rw [unpack_packComponents, if_neg (by decide), if_pos rfl]
    split <;> rfl

end TrafficWatch.Double
