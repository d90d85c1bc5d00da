import TrafficWatch.TotalOrder

/-!
# Baseline — Quantile

Quantiles without interpolation.  A quantile of `n` values in order is the value at the place
`⌊q · (n - 1)⌋`, where `q` is brought between zero and one and what is not a number counts as zero;
so a quantile is always one of the values.
-/

namespace TrafficWatch

/-- A share brought between zero and one. -/
def clampShare (q : Float) : Float :=
  if q.isNaN then 0.0 else if q < 0.0 then 0.0 else if 1.0 < q then 1.0 else q

/-- The place of a quantile among values of which the last has the place `last`. -/
def quantilePlace (q : Float) (last : Nat) : Nat :=
  min (clampShare q * Float.ofNat last).toUInt64.toNat last

/-- The quantile of values that are in order. -/
def quantileOfSorted {α : Type} (sorted : List α) (q : Float) : Option α :=
  sorted[quantilePlace q (sorted.length - 1)]?

/-- The quantile of values in any order, by the places they have in one. -/
def quantileBy {α : Type} (place : α → Int) (values : List α) (q : Float) : Option α :=
  quantileOfSorted (TotalOrder.sortBy place values) q

/-- The quantile of doubles in any order. -/
def quantile (values : List Float) (q : Float) : Option Float :=
  quantileBy TotalOrder.key values q

end TrafficWatch
