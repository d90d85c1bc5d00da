import TrafficWatch.Decimal.Nearest
import TrafficWatch.Power

/-!
# Setup — Way

Ways through a configuration.  A way leads from a table to one of its members and from a list to the
item at one of its places; it is written as names with points between them and places in square
brackets (`wayOf`).
-/

namespace TrafficWatch.Setup

/-- A step down into a configuration. -/
inductive Step where
  /-- To the member of a table. -/
  | member (name : String)
  /-- To the item at a place of a list; places below zero are counted from its end. -/
  | place (n : Int)
deriving Repr, DecidableEq

/-- Steps from the outside inwards. -/
abbrev Way := List Step

/-- The characters of names on a way. -/
def isNameChar (c : Char) : Bool :=
  c.isAlphanum || c = '_' || c = '-'

/-- The rest after blanks, which may stand around the number of a place. -/
def skipPlaceBlanks (s : List Char) : List Char :=
  s.dropWhile fun c => c = ' ' || c = '\t'

/-- The place between brackets, of which the first has been read, and the rest after the second. -/
def readPlace (s : List Char) : Option (Int × List Char) :=
  let (negative, s) := match skipPlaceBlanks s with
    | '-' :: s => (true, s)
    | s => (false, s)
  let digits := s.takeWhile Char.isDigit
  let n : Int := Decimal.digitsValue digits
  let n := if negative then -n else n
  if digits.isEmpty || n < -(twoTo 63 : Int) || (twoTo 63 : Int) ≤ n then none
  else
    match skipPlaceBlanks (s.dropWhile Char.isDigit) with
    | ']' :: rest => some (n, rest)
    | _ => none

/-- The steps after the first name of a way, which fill the whole text. -/
def readSteps : Nat → List Char → Option Way
  | _, [] => some []
  | 0, _ => none
  | fuel + 1, '.' :: s =>
    let name := s.takeWhile isNameChar
    if name.isEmpty then none
    else (readSteps fuel (s.dropWhile isNameChar)).map (.member (String.ofList name) :: ·)
  | fuel + 1, '[' :: s => do
    let (n, s) ← readPlace s
    let steps ← readSteps fuel s
    return .place n :: steps
  | _, _ => none

/-- The way that a text is the writing of: a name and the steps after it. -/
def readWay? (text : List Char) : Option Way :=
  let name := text.takeWhile isNameChar
  if name.isEmpty then none
  else
    (readSteps text.length (text.dropWhile isNameChar)).map (.member (String.ofList name) :: ·)

/-- The way that a text stands for.  A text that is not the writing of a way is one name. -/
def wayOf (text : List Char) : Way :=
  (readWay? text).getD [.member (String.ofList text)]

end TrafficWatch.Setup
