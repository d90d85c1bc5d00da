/-!
# Text — Blank

Blanks in the sense of the White_Space property, and what is left of a text without them at its ends.
-/

namespace TrafficWatch.Text

/-- Whether a character is a blank. -/
def isBlank (c : Char) : Bool :=
  let n := c.toNat
  (9 ≤ n && n ≤ 13) || n = 0x20 || n = 0x85 || n = 0xA0 || n = 0x1680 ||
    (0x2000 ≤ n && n ≤ 0x200A) || n = 0x2028 || n = 0x2029 || n = 0x202F || n = 0x205F || n = 0x3000

/-- A text without the blanks at its start. -/
def trimStart (s : List Char) : List Char :=
  s.dropWhile isBlank

/-- A text without the blanks at its end. -/
def trimEnd (s : List Char) : List Char :=
  (s.reverse.dropWhile isBlank).reverse

/-- A text without the blanks at its ends. -/
def trim (s : List Char) : List Char :=
  trimEnd (trimStart s)

/-- What stands before and after the first blank, if there is one. -/
def splitBlank (s : List Char) : Option (List Char × List Char) :=
  match s.dropWhile (!isBlank ·) with
  | [] => none
  | _ :: rest => some (s.takeWhile (!isBlank ·), rest)

end TrafficWatch.Text
