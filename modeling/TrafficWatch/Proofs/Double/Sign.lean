import Mathlib
import TrafficWatch.Scalar

/-!
# Double — Sign

Which doubles are numbers, of which sign, and how numbers compare.  A double is seen through its
*parts* (`parts`): not a number, a signed infinity, a signed zero, or sign, mantissa and exponent.
Its *sign* (`sign?`) is there exactly when it is a number, and rounding never changes it:

* `sign?_pack`: packing parts into a double keeps the sign, and what is not a number stays so;
* `sign?_mul`, `sign?_div`: the sign of a product and of a quotient;
* `le_iff_not_lt`: two numbers are always comparable.
-/

namespace TrafficWatch.Double

open Float.Model (Format UnpackedFloat)
open Float.Model.UnpackedFloat (Sign Accuracy packComponents roundWithAccuracy)

/-- A double, taken apart. -/
def parts (x : Float) : UnpackedFloat :=
  x.toModel.unpack

/-- The double of the given parts, if they are rounded. -/
def pack (u : UnpackedFloat) : Float :=
  .ofModel (.pack u)

/-- The sign of parts that are a number. -/
def signOfParts? : UnpackedFloat → Option Sign
  | .notANumber => none
  | .infinity s | .zero s | .finite s _ _ _ => some s

/-- The sign of a double that is a number. -/
def sign? (x : Float) : Option Sign :=
  signOfParts? (parts x)

theorem isNaN_eq (x : Float) : x.isNaN = (sign? x).isNone := by
  change (parts x).isNaN = (signOfParts? (parts x)).isNone
  cases parts x <;> rfl

theorem isNaN_of_sign? {x : Float} {s : Sign} (h : sign? x = some s) : x.isNaN = false := by
  rw [isNaN_eq, h]
  rfl

theorem isNaN_of_isFinite {x : Float} (h : x.isFinite = true) : x.isNaN = false := by
  change (parts x).isFinite = true at h
  change (parts x).isNaN = false
  generalize parts x = u at h ⊢
  cases u with
  | notANumber => cases h
  | infinity s | zero s | finite s m e hm => rfl

/-! ### Packing keeps the sign -/

/-- Bits are those of a number unless all of the exponent is set and some of the mantissa. -/
theorem signOfParts?_packComponents (f : Format) (s : Sign) (e : BitVec f.exponentBits)
    (m : BitVec f.mantissaBitsWithoutImplicit) (h : e = -1#_ → m = 0#_) :
    signOfParts? (UnpackedFloat.unpack f (packComponents f s e m)) = some s := by
  unfold UnpackedFloat.unpack
  simp only [UnpackedFloat.unpackMantissa_packComponents,
    UnpackedFloat.unpackExponent_packComponents, UnpackedFloat.unpackSign_packComponents,
    Sign.ofBitVec_toBitVec]
  split
  · rw [if_pos (h ‹_›)]
    rfl
  · split
    · split <;> rfl
    · rfl

/-- **Packing keeps the sign.** -/
theorem sign?_pack (u : UnpackedFloat) : sign? (pack u) = signOfParts? u := by
  change signOfParts? (UnpackedFloat.unpack Format.binary64
    (UnpackedFloat.pack Format.binary64 u)) = _
  fun_cases UnpackedFloat.pack Format.binary64 u with
  | case1 => rfl
  | case2 s | case3 s => exact signOfParts?_packComponents _ s _ _ fun _ => rfl
  | case4 s m e hm biased h => exact signOfParts?_packComponents _ s _ _ fun _ => rfl
  | case5 s m e hm log biased h₁ h₂ =>
      -- the biased exponent of a normal number is below the one of infinity
      refine signOfParts?_packComponents _ s _ _ fun he => absurd (congrArg BitVec.toNat he) ?_
      have h : 2 ^ Format.binary64.exponentBits = 2048 := rfl
      simp
      omega
  | case6 s m e hm biased h₁ h₂ =>
      exact signOfParts?_packComponents _ s _ _ fun he => absurd he (by decide)

/-! ### The sign of what is computed -/

theorem sign_round (f : Format) (s : Sign) (m : Nat) (e : Int) (a : Accuracy) :
    signOfParts? (roundWithAccuracy f s m e a) = some s := by
  unfold roundWithAccuracy
  simp only
  split <;> rfl

/-- What is worked out from a number has a sign that depends on that of the number only, if it is so
for infinity, for zero and for all others. -/
theorem sign?_pack_of (op : UnpackedFloat → UnpackedFloat) (turn : Sign → Sign)
    (hinfinity : ∀ r, signOfParts? (op (.infinity r)) = some (turn r))
    (hzero : ∀ r, signOfParts? (op (.zero r)) = some (turn r))
    (hfinite : ∀ r n f hn, signOfParts? (op (.finite r n f hn)) = some (turn r))
    {x : Float} {s : Sign} (hx : sign? x = some s) : sign? (pack (op (parts x))) = some (turn s) := by
  rw [sign?_pack]
  unfold sign? at hx
  cases hp : parts x with
  | notANumber => rw [hp] at hx; cases hx
  | infinity r => rw [hp] at hx; cases hx; exact hinfinity s
  | zero r => rw [hp] at hx; cases hx; exact hzero s
  | finite r n f hn => rw [hp] at hx; cases hx; exact hfinite s n f hn

/-- A number times a finite number other than zero. -/
theorem sign?_mul {x y : Float} {s t : Sign} {m : Nat} {e : Int} {h : 0 < m} (hx : sign? x = some s)
    (hy : parts y = .finite t m e h) : sign? (x * y) = some (s * t) := by
  change sign? (pack (UnpackedFloat.mul Format.binary64 (parts x) (parts y))) = _
  rw [hy]
  exact sign?_pack_of (fun u => UnpackedFloat.mul Format.binary64 u (.finite t m e h))
    (· * t) (fun _ => rfl) (fun _ => rfl) (fun _ _ _ _ => sign_round _ _ _ _ _) hx

/-- A number divided by a finite number other than zero. -/
theorem sign?_div {x y : Float} {s t : Sign} {m : Nat} {e : Int} {h : 0 < m} (hx : sign? x = some s)
    (hy : parts y = .finite t m e h) : sign? (x / y) = some (s / t) := by
  change sign? (pack (UnpackedFloat.div Format.binary64 (parts x) (parts y))) = _
  rw [hy]
  exact sign?_pack_of (fun u => UnpackedFloat.div Format.binary64 u (.finite t m e h))
    (· / t) (fun _ => rfl) (fun _ => rfl) (fun _ _ _ _ => sign_round _ _ _ _ _) hx

theorem sign?_neg {x : Float} {s : Sign} (hx : sign? x = some s) : sign? (-x) = some (-s) :=
  sign?_pack_of UnpackedFloat.neg (- ·) (fun _ => rfl) (fun _ => rfl)
    (fun _ _ _ _ => rfl) hx

theorem sign_ofNat (f : Format) (n : Nat) :
    signOfParts? (UnpackedFloat.ofNat f n) = some .positive := by
  unfold UnpackedFloat.ofNat UnpackedFloat.ofInt UnpackedFloat.normalize
  split
  · rename_i h
    rw [Int.compare_eq_lt] at h
    omega
  · rfl
  · exact sign_round _ _ _ _ _

theorem sign_ofScientific (f : Format) (m : Nat) (e : Int) :
    signOfParts? (UnpackedFloat.ofScientific f m e) = some .positive := by
  unfold UnpackedFloat.ofScientific
  split
  · rfl
  split
  · rfl
  split
  · rfl
  split
  · exact sign_round _ _ _ _ _
  · exact sign_round _ _ _ _ _

/-- A natural number is positive as a double. -/
theorem sign?_ofNat (n : Nat) : sign? (Float.ofNat n) = some .positive := by
  unfold Float.ofNat OfScientific.ofScientific instOfScientificFloat Float.ofScientific
  simp only
  split
  · have hn : sign? n.toUInt64.toFloat = some .positive := (sign?_pack _).trans (sign_ofNat _ _)
    have hone : parts (Float.ofBits 0x3FF0000000000000) =
        .finite .positive (2 ^ 52) (-52) (by decide) := rfl
    exact sign?_mul hn hone
  · exact (sign?_pack _).trans (sign_ofScientific _ _ _)

/-- A whole number is a number as a double. -/
theorem exists_sign?_ofInt (n : Int) : ∃ s, sign? (Float.ofInt n) = some s := by
  cases n with
  | ofNat n => exact ⟨_, sign?_ofNat n⟩
  | negSucc n => exact ⟨_, sign?_neg (sign?_ofNat (n + 1))⟩

/-! ### The order of numbers -/

theorem compare_then_swap (e f : Int) (m n : Nat) :
    (compare f e).then (compare n m) = ((compare e f).then (compare m n)).swap := by
  rw [Ordering.swap_then, Int.compare_swap, Nat.compare_swap]

theorem compare_swap (u v : UnpackedFloat) : v.compare u = (u.compare v).map Ordering.swap := by
  rcases u with (_ | _) | _ | _ | ⟨_ | _, m, e, hm⟩ <;>
    rcases v with (_ | _) | _ | _ | ⟨_ | _, n, f, hn⟩ <;>
    first
    | rfl
    | exact congrArg some (compare_then_swap e f m n)
    | exact congrArg (some ·.swap) (compare_then_swap e f m n)

theorem compare_isSome {u v : UnpackedFloat} (hu : u.isNaN = false) (hv : v.isNaN = false) :
    (u.compare v).isSome := by
  rcases u with (_ | _) | _ | _ | ⟨_ | _, m, e, hm⟩ <;>
    rcases v with (_ | _) | _ | _ | ⟨_ | _, n, f, hn⟩ <;>
    simp_all [UnpackedFloat.compare, UnpackedFloat.isNaN]

theorem lt_iff (x y : Float) : x < y ↔ (parts x).compare (parts y) = some .lt := by
  change decide (UnpackedFloat.lt _ _ = true) = true ↔ _
  simp [UnpackedFloat.lt, parts]

theorem le_iff (x y : Float) : x ≤ y ↔ ((parts x).compare (parts y)).any (·.isLE) = true := by
  change decide (UnpackedFloat.le _ _ = true) = true ↔ _
  rw [decide_eq_true_iff]
  rfl

/-- **Numbers are comparable.** -/
theorem le_iff_not_lt {x y : Float} (hx : x.isNaN = false) (hy : y.isNaN = false) :
    x ≤ y ↔ ¬ y < x := by
  rw [le_iff, lt_iff, compare_swap (parts x) (parts y)]
  obtain ⟨o, ho⟩ : ∃ o, (parts x).compare (parts y) = some o :=
    Option.isSome_iff_exists.mp (compare_isSome hx hy)
  rw [ho]
  cases o <;> decide

/-- What is greater is not equal. -/
theorem beq_of_lt {x y : Float} (h : x < y) : (y == x) = false := by
  rw [lt_iff] at h
  change UnpackedFloat.beq (parts y) (parts x) = false
  unfold UnpackedFloat.beq
  rw [compare_swap, h]
  rfl

end TrafficWatch.Double
