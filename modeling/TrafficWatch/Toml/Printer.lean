import TrafficWatch.Setup.Node
import TrafficWatch.Json.Value

/-!
# Toml — Printer

Tables as a document.  A table writes its values first, one a line, and then the tables in it, each
under a header of its own with an empty line in front; what is absent is left out.
-/

namespace TrafficWatch.Toml

open Setup (Node)

/-- Numbers stand around a point, and always show it. -/
def numberLayout : Decimal.Layout :=
  { Decimal.Layout.plain with keepsPoint := true, notANumber := "nan" }

/-- The text of a whole number. -/
def wholeText (n : Int) : List Char :=
  if n < 0 then '-' :: Decimal.natural n.natAbs else Decimal.natural n.natAbs

mutual

/-- A value on one line. -/
def valueText : Node → List Char
  | .absent => []
  | .truth b => (if b then "true" else "false").toList
  | .whole n => wholeText n
  | .real x => numberLayout.render x
  | .text s => Json.quoted s.toList
  | .list items => '[' :: Json.separated [',', ' '] (valueTexts items) ++ [']']
  | .table ms => "\x7b ".toList ++ Json.separated [',', ' '] (memberTexts ms) ++ " \x7d".toList

/-- The texts of values. -/
def valueTexts : List Node → List (List Char)
  | [] => []
  | n :: rest => valueText n :: valueTexts rest

/-- The texts of keys with their values. -/
def memberTexts : List (String × Node) → List (List Char)
  | [] => []
  | (name, n) :: rest => (name.toList ++ " = ".toList ++ valueText n) :: memberTexts rest

end

/-- The lines of the members that are neither tables nor absent. -/
def valueLines : List (String × Node) → List (List Char)
  | [] => []
  | (name, n) :: rest =>
    match n with
    | .absent | .table _ => valueLines rest
    | n => (name.toList ++ " = ".toList ++ valueText n) :: valueLines rest

mutual

/-- The lines of a table below a header. -/
def tableLines (header : List String) : Node → List (List Char)
  | .table ms =>
    ('[' :: (".".intercalate header).toList ++ [']']) :: valueLines ms ++ subtableLines header ms
  | _ => []

/-- The lines of the tables among the members of a table, each after an empty line. -/
def subtableLines (header : List String) : List (String × Node) → List (List Char)
  | [] => []
  | (name, n) :: rest =>
    match n with
    | .table ms => [] :: tableLines (header ++ [name]) (.table ms) ++ subtableLines header rest
    | _ => subtableLines header rest

end

/-- The lines of a document: no empty line stands at its start. -/
def documentLines (members : List (String × Node)) : List (List Char) :=
  match valueLines members, subtableLines [] members with
  | [], _ :: rest => rest
  | values, rest => values ++ rest

end TrafficWatch.Toml
