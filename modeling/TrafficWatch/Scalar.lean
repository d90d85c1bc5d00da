import TrafficWatch.Decimal.Binary

/-!
# Scalar

The arithmetic that the numerical algorithms need.  They are written once for every `Scalar`, run on
doubles, and can be reasoned about over any field with square roots, where no operation rounds.
-/

namespace TrafficWatch

/-- Numbers with the four operations, square roots and signs. -/
class Scalar (α : Type) extends Add α, Sub α, Mul α, Div α where
  zero : α
  one : α
  /-- The square root. -/
  sqrt : α → α
  /-- The distance from zero. -/
  abs : α → α
  /-- One with the sign of a number. -/
  sign : α → α
  /-- The number, or zero if it is negative. -/
  positivePart : α → α
  /-- Whether a number equals zero. -/
  isZero : α → Bool

namespace Scalar

variable {α : Type} [Scalar α]

/-- The sum of a list, from the left. -/
def sum (xs : List α) : α :=
  xs.foldl (· + ·) zero

/-- The sum of the products of two lists, as far as both reach. -/
def dot (xs ys : List α) : α :=
  sum (List.zipWith (· * ·) xs ys)

end Scalar

/-- Doubles.  The sign of a zero is that of its sign bit, and what is not a number has no positive
part. -/
instance : Scalar Float where
  zero := 0.0
  one := 1.0
  sqrt := Float.sqrt
  abs := Float.abs
  sign x := if x.isNaN then x else if Decimal.isNegative x then -1.0 else 1.0
  positivePart x := if 0.0 < x then x else 0.0
  isZero x := x == 0.0

end TrafficWatch
