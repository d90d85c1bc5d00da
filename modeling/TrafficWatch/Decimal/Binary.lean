import TrafficWatch.Power

/-!
# Decimal — Binary

A double-precision number seen as an exact binary fraction.  `Magnitude.ofBits` takes the sixty-four
bits of a double apart into zero, a positive fraction `mantissa · 2 ^ exponent`, infinity or not a
number; `bitsOf` puts a fraction together again.  Everything that writes or reads decimal text works
on these natural numbers, so no step of it rounds.
-/

namespace TrafficWatch.Decimal

/-- A positive double: `mantissa · 2 ^ exponent`. -/
structure Binary where
  mantissa : Nat
  exponent : Int
  /-- The neighbour below is half as far away as the one above: the mantissa is a power of two. -/
  narrowBelow : Bool
deriving Repr, DecidableEq

/-- What a double is, its sign apart. -/
inductive Magnitude where
  | zero
  | finite (value : Binary)
  | infinite
  | notANumber
deriving Repr, DecidableEq

/-- The magnitude written in the low sixty-three bits of a double. -/
def Magnitude.ofBits (bits : Nat) : Magnitude :=
  let biased : Nat := bits / twoTo 52 % twoTo 11
  let fraction : Nat := bits % twoTo 52
  if biased = 2047 then
    if fraction = 0 then .infinite else .notANumber
  else if biased = 0 then
    if fraction = 0 then .zero else .finite ⟨fraction, -1074, false⟩
  else
    .finite ⟨twoTo 52 + fraction, (biased : Int) - 1075, fraction = 0 && 1 < biased⟩

/-- The sign bit of a double. -/
def signBit (bits : Nat) : Bool :=
  bits / twoTo 63 % 2 = 1

/-- The magnitude of a double. -/
def magnitude (x : Float) : Magnitude :=
  .ofBits x.toBits.toNat

/-- Whether the sign of a double is set, which holds of `-0.0` too. -/
def isNegative (x : Float) : Bool :=
  signBit x.toBits.toNat

/-- The sixty-three low bits of `mantissa · 2 ^ exponent` for `-1074 ≤ exponent`.  The mantissa of a
normal number carries into the field of the exponent, and so does one that rounding has raised to
`2 ^ 53`; past the largest double the bits are those of infinity. -/
def bitsOf (mantissa : Nat) (exponent : Int) : Nat :=
  min ((exponent + 1074).toNat * twoTo 52 + mantissa) (2047 * twoTo 52)

/-- The double with the given sign and low bits. -/
def ofSignAndBits (negative : Bool) (bits : Nat) : Float :=
  Float.ofBits (UInt64.ofNat (if negative then twoTo 63 + bits else bits))

end TrafficWatch.Decimal
