import TrafficWatch.Setup.Node
import TrafficWatch.Decimal.Layout
import TrafficWatch.Decimal.Nearest

/-!
# Setup — Reading

How the nodes of a configuration are read as settings.  A `Reading` decides what is accepted where a
number, a truth value, a text or one of several words is expected.  `Reading.exact` accepts what is of
the kind, and `Reading.free` converts between kinds wherever that has a meaning.  Records are read the
same way by both: by name from a table, or in order from a list, and what is missing stays as it was.
-/

namespace TrafficWatch.Setup

/-- What is accepted where something is expected. -/
structure Reading where
  /-- A whole number from zero to below a bound. -/
  naturalBelow : Nat → Node → Option Nat
  real : Node → Option Float
  truth : Node → Option Bool
  text : Node → Option String
  /-- The word for one of several things. -/
  word : Node → Option String
  /-- A list may have more items than the record has fields. -/
  allowsMore : Bool

namespace Reading

/-- A number below a bound. -/
def below (bound n : Nat) : Option Nat :=
  if n < bound then some n else none

/-- A whole number as a double. -/
def realOfWhole (n : Int) : Float :=
  Decimal.nearest (n < 0) n.natAbs 0

/-- Only what is of the kind is accepted; a whole number is a number too, and a word may be the only
member of a table, without a value. -/
def exact : Reading where
  naturalBelow bound
    | .whole n => if n < 0 then none else below bound n.toNat
    | _ => none
  real
    | .real x => some x
    | .whole n => some (realOfWhole n)
    | _ => none
  truth
    | .truth b => some b
    | _ => none
  text
    | .text s => some s
    | _ => none
  word
    | .text s => some s
    | .table [(name, .absent)] => some name
    | _ => none
  allowsMore := false

/-- A word in lower case. -/
def lowered (s : String) : String :=
  String.ofList (s.toList.map Char.toLower)

/-- The truth value that a word stands for. -/
def truthOfWord? (s : String) : Option Bool :=
  let w := lowered s
  if ["true", "on", "yes"].contains w then some true
  else if ["false", "off", "no"].contains w then some false
  else none

/-- A double rounded to a whole number, a half away from zero, and held between zero and the greatest
number of a machine word. -/
def roundedNatural (x : Float) : Nat :=
  match Decimal.magnitude x with
  | .zero | .notANumber => 0
  | .infinite => if Decimal.isNegative x then 0 else twoTo 64 - 1
  | .finite b =>
    if Decimal.isNegative x then 0
    else
      let scale := twoTo (-b.exponent).toNat
      min ((2 * (b.mantissa * twoTo b.exponent.toNat) + scale) / (2 * scale)) (twoTo 64 - 1)

/-- The digits of a number, after a plus sign if there is one. -/
def naturalOfText? (s : String) : Option Nat :=
  let digits := match s.toList with
    | '+' :: rest => rest
    | cs => cs
  if digits.isEmpty || !digits.all Char.isDigit then none else some (Decimal.digitsValue digits)

/-- The truth value as a number. -/
def naturalOfTruth (b : Bool) : Nat :=
  if b then 1 else 0

/-- A whole number from zero to below the bound of a machine word. -/
def freeNatural : Node → Option Nat
  | .whole n => if n < 0 then none else some n.toNat
  | .real x => some (roundedNatural x)
  | .truth b => some (naturalOfTruth b)
  | .text s =>
    match truthOfWord? s with
    | some b => some (naturalOfTruth b)
    | none => (naturalOfText? s).bind (below (twoTo 64))
  | _ => none

/-- A double. -/
def freeReal : Node → Option Float
  | .whole n => some (realOfWhole n)
  | .real x => some x
  | .truth b => some (realOfWhole (naturalOfTruth b))
  | .text s =>
    match truthOfWord? s with
    | some b => some (realOfWhole (naturalOfTruth b))
    | none => Decimal.parseFloat? s.toList
  | _ => none

/-- A truth value. -/
def freeTruth : Node → Option Bool
  | .whole n => some (n ≠ 0)
  | .real x => some (x != 0.0)
  | .truth b => some b
  | .text s => if s = "1" then some true else if s = "0" then some false else truthOfWord? s
  | _ => none

/-- Numbers in texts have all their digits around a point, and whole numbers none. -/
def textLayout : Decimal.Layout := .plain

/-- A text. -/
def freeText : Node → Option String
  | .whole n => some (toString n)
  | .real x => some (textLayout.text x)
  | .truth b => some (toString b)
  | .text s => some s
  | _ => none

/-- Whatever has a meaning is accepted; a word may be the only member of a table, whatever its
value. -/
def free : Reading where
  naturalBelow bound n := (freeNatural n).bind (below bound)
  real := freeReal
  truth := freeTruth
  text := freeText
  word
    | .text s => some s
    | .table [(name, _)] => some name
    | _ => none
  allowsMore := true

end Reading

/-- A field of a record: its name, and the record after its value has been read. -/
abbrev Slot (ρ : Type) := String × (Node → ρ → Option ρ)

section Records

variable {ρ : Type}

/-- A record whose fields are looked up by name. -/
def readNamed (members : List (String × Node)) : List (Slot ρ) → ρ → Option ρ
  | [], draft => some draft
  | (name, read) :: fields, draft =>
    match members.lookup name with
    | none => readNamed members fields draft
    | some n => (read n draft).bind (readNamed members fields)

/-- A record whose fields are given in order. -/
def readOrdered (r : Reading) : List (Slot ρ) → List Node → ρ → Option ρ
  | _, [], draft => some draft
  | [], _ :: _, draft => if r.allowsMore then some draft else none
  | (_, read) :: fields, n :: rest, draft => (read n draft).bind (readOrdered r fields rest)

/-- A record read over what it was before. -/
def Reading.record (r : Reading) (fields : List (Slot ρ)) (draft : ρ) : Node → Option ρ
  | .table members => readNamed members fields draft
  | .list items => readOrdered r fields items draft
  | _ => none

end Records

end TrafficWatch.Setup
