import TrafficWatch.Power

/-!
# Total order

The total order of doubles: every double has a place, `-0.0` stands before `0.0`, and what is not a
number stands outside both infinities, on the side of its sign.  `keyOfBits` sends the bits of a double
to a whole number, and the order is the order of these numbers.
-/

namespace TrafficWatch.TotalOrder

/-- The place in the total order of the double that has the given bits.  The bits of a number with its
sign set grow as the number falls. -/
def keyOfBits (bits : UInt64) : Int :=
  let bits : Nat := bits.toNat
  if bits < twoTo 63 then bits else (twoTo 63 : Int) - 1 - bits

/-- The place of a double in the total order. -/
def key (x : Float) : Int :=
  keyOfBits x.toBits

/-- Whether the first double stands before the second, or at the same place. -/
def le (x y : Float) : Bool :=
  key x ≤ key y

/-- Items in the order of their places; those of the same place stay as they are. -/
def sortBy {α : Type} (place : α → Int) (xs : List α) : List α :=
  xs.mergeSort fun x y => place x ≤ place y

/-- The doubles in ascending order. -/
def sort (xs : List Float) : List Float :=
  sortBy key xs

end TrafficWatch.TotalOrder
