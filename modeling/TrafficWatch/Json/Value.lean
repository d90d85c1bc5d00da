import TrafficWatch.Decimal.Layout
import TrafficWatch.Decimal.Nearest

/-!
# Json — Value

JSON values as they are written.  Numbers keep apart whole numbers of a machine word and doubles, and
an object keeps its members in the order they were given.  `Value.compact` writes a value on one line
and `Value.pretty` over several with two blanks a level; both escape the same characters
(`escaped`) and lay numbers out by one record (`numberLayout`).
-/

namespace TrafficWatch.Json

/-- A number as JSON readers of machine words see it. -/
inductive Number where
  | natural (n : Nat)
  | negative (n : Nat)
  | real (x : Float)

/-- A JSON value. -/
inductive Value where
  | null
  | bool (b : Bool)
  | number (n : Number)
  | text (s : String)
  | list (items : List Value)
  | object (members : List (String × Value))

/-- Numbers stand around a point from five places behind it to sixteen digits before it, and always
show a point or an exponent; what is not finite has no number and is written as null. -/
def numberLayout : Decimal.Layout where
  tie := .toEven
  least := some (-5)
  greatest := some 15
  keepsPoint := true
  plusSign := true
  infinite := "null"
  notANumber := "null"

/-- A hexadecimal digit in lower case. -/
def hexDigit (n : Nat) : Char :=
  Nat.digitChar (n % 16)

/-- A character inside quotes: quotes, backslashes and control characters are escaped, all others
stand for themselves. -/
def escapedChar (c : Char) : List Char :=
  if c = '\"' then ['\\', '\"']
  else if c = '\\' then ['\\', '\\']
  else if c = '\n' then ['\\', 'n']
  else if c = '\r' then ['\\', 'r']
  else if c = '\t' then ['\\', 't']
  else if c = '\x08' then ['\\', 'b']
  else if c = '\x0c' then ['\\', 'f']
  else if c.toNat < 32 then ['\\', 'u', '0', '0', hexDigit (c.toNat / 16), hexDigit c.toNat]
  else [c]

/-- A text between quotes. -/
def quoted (s : List Char) : List Char :=
  '\"' :: s.flatMap escapedChar ++ ['\"']

namespace Number

/-- The text of a number. -/
def render : Number → List Char
  | natural n => Decimal.natural n
  | negative n => '-' :: Decimal.natural n
  | real x => if x.isFinite then numberLayout.render x else "null".toList

/-- The number as a double, rounded to the nearest. -/
def toFloat : Number → Float
  | natural n => Decimal.nearest false n 0
  | negative n => Decimal.nearest true n 0
  | real x => x

end Number

/-- Texts with a comma between them. -/
def separated (separator : List Char) : List (List Char) → List Char
  | [] => []
  | [one] => one
  | one :: rest => one ++ separator ++ separated separator rest

namespace Value

mutual

/-- A value on one line without blanks. -/
def compact : Value → List Char
  | null => "null".toList
  | bool b => (if b then "true" else "false").toList
  | number n => n.render
  | text s => quoted s.toList
  | list items => '[' :: separated [','] (compactItems items) ++ [']']
  | object members => '\x7b' :: separated [','] (compactMembers members) ++ ['\x7d']

/-- The texts of the items of a list. -/
def compactItems : List Value → List (List Char)
  | [] => []
  | v :: rest => v.compact :: compactItems rest

/-- The texts of the members of an object. -/
def compactMembers : List (String × Value) → List (List Char)
  | [] => []
  | (name, v) :: rest => (quoted name.toList ++ ':' :: v.compact) :: compactMembers rest

end

/-- The break before an item at a level. -/
def lineBreak (level : Nat) : List Char :=
  '\n' :: List.replicate (2 * level) ' '

mutual

/-- A value over several lines, its items indented by two blanks a level. -/
def prettyAt (level : Nat) : Value → List Char
  | list [] => ['[', ']']
  | list items =>
    '[' :: lineBreak (level + 1) ++
      separated (',' :: lineBreak (level + 1)) (prettyItems (level + 1) items) ++
      lineBreak level ++ [']']
  | object [] => ['\x7b', '\x7d']
  | object members =>
    '\x7b' :: lineBreak (level + 1) ++
      separated (',' :: lineBreak (level + 1)) (prettyMembers (level + 1) members) ++
      lineBreak level ++ ['\x7d']
  | null => "null".toList
  | bool b => (if b then "true" else "false").toList
  | number n => n.render
  | text s => quoted s.toList

/-- The texts of the items of a list at a level. -/
def prettyItems (level : Nat) : List Value → List (List Char)
  | [] => []
  | v :: rest => v.prettyAt level :: prettyItems level rest

/-- The texts of the members of an object at a level. -/
def prettyMembers (level : Nat) : List (String × Value) → List (List Char)
  | [] => []
  | (name, v) :: rest =>
    (quoted name.toList ++ ':' :: ' ' :: v.prettyAt level) :: prettyMembers level rest

end

/-- A value over several lines. -/
def pretty (v : Value) : List Char :=
  v.prettyAt 0

mutual

/-- How many lists and objects stand around the innermost value. -/
def nesting : Value → Nat
  | list items => nestingOfItems items + 1
  | object members => nestingOfMembers members + 1
  | null | bool _ | number _ | text _ => 0

/-- The greatest nesting among the items of a list. -/
def nestingOfItems : List Value → Nat
  | [] => 0
  | v :: rest => max v.nesting (nestingOfItems rest)

/-- The greatest nesting among the members of an object. -/
def nestingOfMembers : List (String × Value) → Nat
  | [] => 0
  | (_, v) :: rest => max v.nesting (nestingOfMembers rest)

end

/-- The member of an object with the given name, the last one if there are several. -/
def member? (name : String) : Value → Option Value
  | object members => (members.reverse.find? (·.1 == name)).map (·.2)
  | _ => none

/-- The value of a double. -/
def ofFloat (x : Float) : Value :=
  .number (.real x)

/-- The value of a natural number. -/
def ofNat (n : Nat) : Value :=
  .number (.natural n)

/-- The value of a whole number. -/
def ofInt (n : Int) : Value :=
  .number (if n < 0 then .negative n.natAbs else .natural n.toNat)

end Value

end TrafficWatch.Json
