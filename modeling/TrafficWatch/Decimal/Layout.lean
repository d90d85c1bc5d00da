import TrafficWatch.Decimal.Shortest

/-!
# Decimal — Layout

How the digits of a number are laid out as text.  A `Layout` holds every decision a format makes:
which way a tie goes, between which exponents the digits stand around a point, whether a whole number
keeps a `.0`, the sign of a positive exponent, and the words for what is not a finite number.
`Layout.render` is one function for all formats; each format states its record where it is written.
-/

namespace TrafficWatch.Decimal

/-- The decimal digits of a natural number. -/
def natural (n : Nat) : List Char :=
  if n < 10 then [Nat.digitChar n] else natural (n / 10) ++ [Nat.digitChar (n % 10)]
decreasing_by omega

/-- The decisions of a text format for numbers. -/
structure Layout where
  tie : Tie
  /-- The least exponent of the leading digit that is written around a point, if there is one. -/
  least : Option Int
  /-- The greatest exponent of the leading digit that is written around a point, if there is one. -/
  greatest : Option Int
  /-- A whole number written around a point keeps one zero after the point. -/
  keepsPoint : Bool
  /-- A positive exponent is written with a plus sign. -/
  plusSign : Bool
  infinite : String
  notANumber : String
deriving Repr

namespace Layout

/-- Whether a number whose leading digit stands at `10 ^ e` is written around a point. -/
def isPositional (l : Layout) (e : Int) : Bool :=
  l.least.all (· ≤ e) && l.greatest.all (e ≤ ·)

/-- Digits around a point: zeros fill the places between the digits and the point. -/
def positional (l : Layout) (d : Digits) : List Char :=
  let digits := natural d.significand
  if 0 ≤ d.exponent then
    digits ++ List.replicate d.exponent.toNat '0' ++ if l.keepsPoint then ['.', '0'] else []
  else
    let places := (-d.exponent).toNat
    if digits.length ≤ places then
      '0' :: '.' :: List.replicate (places - digits.length) '0' ++ digits
    else
      digits.take (digits.length - places) ++ '.' :: digits.drop (digits.length - places)

/-- One digit, the others after a point, and the exponent of ten of the first. -/
def scientific (l : Layout) (d : Digits) (e : Int) : List Char :=
  let exponent :=
    if e < 0 then '-' :: natural (-e).toNat
    else if l.plusSign then '+' :: natural e.toNat
    else natural e.toNat
  match natural d.significand with
  | [] => []
  | [first] => first :: 'e' :: exponent
  | first :: rest => first :: '.' :: rest ++ 'e' :: exponent

/-- The text of a number's magnitude. -/
def renderMagnitude (l : Layout) : Magnitude → List Char
  | .infinite => l.infinite.toList
  | .notANumber => l.notANumber.toList
  | .zero => if l.isPositional 0 then l.positional ⟨0, 0⟩ else l.scientific ⟨0, 0⟩ 0
  | .finite x =>
    let d := shortest l.tie x
    let e := d.exponent + (natural d.significand).length - 1
    if l.isPositional e then l.positional d else l.scientific d e

/-- The text of a number.  What is not a number is written without a sign. -/
def render (l : Layout) (x : Float) : List Char :=
  match magnitude x with
  | .notANumber => l.notANumber.toList
  | m => if isNegative x then '-' :: l.renderMagnitude m else l.renderMagnitude m

/-- The text of a number as a string. -/
def text (l : Layout) (x : Float) : String :=
  String.ofList (l.render x)

/-- Digits around a point whatever the size; a whole number stands without a point. -/
def plain : Layout where
  tie := .upward
  least := none
  greatest := none
  keepsPoint := false
  plusSign := false
  infinite := "inf"
  notANumber := "NaN"

end Layout

end TrafficWatch.Decimal
