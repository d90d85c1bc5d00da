import TrafficWatch.Setup.Reading

/-!
# Setup — Environment

Variables of the environment as layers.  The name of a variable in lower case, without the word that
marks it as one of ours, is a way into the configuration, in which two underscores stand for a point;
its value is read as the first of a truth value, a whole number, a number and a text that it can be.
-/

namespace TrafficWatch.Setup

/-- How the names of our environment begin, in lower case. -/
def variableMark : List Char := "aegis_".toList

/-- A name in which two underscores have become a point. -/
def pointed : List Char → List Char
  | '_' :: '_' :: rest => '.' :: pointed rest
  | c :: rest => c :: pointed rest
  | [] => []

/-- A letter in lower case.  Of all letters beyond ASCII only the sign for kelvins turns into one that
our names have, so the others are left. -/
def lowerLetter (c : Char) : Char :=
  if c = '\u212A' then 'k' else c.toLower

/-- The rest of a name after a mark. -/
def afterMark? : List Char → List Char → Option (List Char)
  | [], rest => some rest
  | m :: mark, c :: rest => if m = c then afterMark? mark rest else none
  | _ :: _, [] => none

/-- A whole number with a sign, if it fits a machine word. -/
def wholeOfText? (s : List Char) : Option Int :=
  let (negative, digits) := match s with
    | '-' :: rest => (true, rest)
    | '+' :: rest => (false, rest)
    | cs => (false, cs)
  if digits.isEmpty || !digits.all Char.isDigit then none
  else
    let n : Int := Decimal.digitsValue digits
    let n := if negative then -n else n
    if -(twoTo 63 : Int) ≤ n && n < twoTo 63 then some n else none

/-- The value of a variable. -/
def variableNode (value : String) : Node :=
  let word := Reading.lowered value
  if word = "true" then .truth true
  else if word = "false" then .truth false
  else
    match wholeOfText? value.toList with
    | some n => .whole n
    | none =>
      match Decimal.parseFloat? value.toList with
      | some x => .real x
      | none => .text value

/-- The layer of a variable, if it is one of ours. -/
def variableLayer? (name value : String) : Option Layer :=
  (afterMark? variableMark (name.toList.map lowerLetter)).map fun rest =>
    ⟨wayOf (pointed rest), variableNode value⟩

/-- The layers of the environment. -/
def environmentLayers (environment : List (String × String)) : List Layer :=
  environment.filterMap fun (name, value) => variableLayer? name value

end TrafficWatch.Setup
