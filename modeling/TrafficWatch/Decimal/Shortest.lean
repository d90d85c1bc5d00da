import TrafficWatch.Decimal.Binary

/-!
# Decimal — Shortest

The fewest decimal digits that read back as a given double, and of those the nearest to it
(`shortest`).  A decimal reads back as a double when it lies in the interval of reals that round to
that double; the two ends belong to the interval exactly when the mantissa is even.  On the grid of
multiples of a power of ten only the two neighbours of the double matter: when any point of the grid
lies in the interval, so does one of them.
-/

namespace TrafficWatch.Decimal

/-- Which of two equally near decimals is taken. -/
inductive Tie where
  | toEven
  | upward
deriving Repr, DecidableEq

/-- A positive decimal `significand · 10 ^ exponent`. -/
structure Digits where
  significand : Nat
  exponent : Int
deriving Repr, DecidableEq

/-- The number of decimal digits of a natural number, `0` for zero. -/
def digitCount (n : Nat) : Nat :=
  if n = 0 then 0 else digitCount (n / 10) + 1
decreasing_by omega

/-- The exponent of ten of the leading digit of `numerator / denominator`. -/
def leadingExponent (numerator denominator : Nat) : Int :=
  if denominator ≤ numerator then
    (digitCount (numerator / denominator) : Int) - 1
  else
    -(digitCount ((denominator - 1) / numerator) : Int)

namespace Binary

/-- The exponent of ten of the leading digit of a double. -/
def leading (x : Binary) : Int :=
  leadingExponent (x.mantissa * twoTo x.exponent.toNat) (twoTo (-x.exponent).toNat)

/-- The multiple of `10 ^ place` that reads back as `x`, the nearer one if two do.  All quantities are
in quarters of a unit in the last binary place, brought to a common denominator. -/
def onGrid? (x : Binary) (tie : Tie) (place : Int) : Option Nat :=
  let ten := tenTo place.toNat * twoTo (2 - x.exponent).toNat
  let two := tenTo (-place).toNat * twoTo (x.exponent - 2).toNat
  let value := 4 * x.mantissa * two
  let lowest := (4 * x.mantissa - if x.narrowBelow then 1 else 2) * two
  let highest := (4 * x.mantissa + 2) * two
  let readsBack (n : Nat) : Bool :=
    if x.mantissa % 2 = 0 then lowest ≤ n * ten && n * ten ≤ highest
    else lowest < n * ten && n * ten < highest
  let below := value / ten
  match readsBack below, readsBack (below + 1) with
  | false, false => none
  | true, false => some below
  | false, true => some (below + 1)
  | true, true =>
    match compare (2 * value) ((2 * below + 1) * ten) with
    | .lt => some below
    | .gt => some (below + 1)
    | .eq =>
      match tie with
      | .upward => some (below + 1)
      | .toEven => some (if below % 2 = 0 then below else below + 1)

end Binary

/-- The same decimal without zeros at the end of its significand. -/
def Digits.trimmed (d : Digits) : Digits :=
  if d.significand ≠ 0 ∧ d.significand % 10 = 0 then
    Digits.trimmed ⟨d.significand / 10, d.exponent + 1⟩
  else d
termination_by d.significand
decreasing_by omega

/-- The fewest digits that read back as `x`, and of those the nearest.  Seventeen digits always
suffice. -/
def shortest (tie : Tie) (x : Binary) : Digits :=
  let first := x.leading
  let found := (List.range 18).findSome? fun (k : Nat) =>
    (x.onGrid? tie (first - k)).map fun n => Digits.mk n (first - k)
  (found.getD ⟨0, 0⟩).trimmed

end TrafficWatch.Decimal
