/-!
# Power

Powers of two and of ten, by which the places of binary and decimal numbers are counted.
-/

namespace TrafficWatch

/-- Two to the power of a natural number. -/
def twoTo (n : Nat) : Nat := Nat.pow 2 n

/-- Ten to the power of a natural number. -/
def tenTo (n : Nat) : Nat := Nat.pow 10 n

end TrafficWatch
