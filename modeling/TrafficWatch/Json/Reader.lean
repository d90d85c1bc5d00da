import TrafficWatch.Json.Document
import TrafficWatch.Text.Bytes

/-!
# Json — Reader

From text to document.  `Document.ofText` scans a text from left to right and stops at the first
place that is no JSON.  Each reader answers what it has read together with the rest of the text, or
with no rest where reading has stopped.  The readers that call each other recur on a bound that the
length of the text supplies, for every call consumes a character.

A text that comes from bytes may have a foreign character (`Text.Decoded`), which stands for each byte
that is part of no character.  It may stand between quotes, but then the text there says nothing.
-/

namespace TrafficWatch.Json

open Text (Decoded)

/-- Characters that may stand between tokens. -/
def isBlank (c : Char) : Bool :=
  c = ' ' || c = '\n' || c = '\t' || c = '\r'

/-- The text after its leading blanks. -/
def skipBlanks (s : List Char) : List Char :=
  s.dropWhile isBlank

/-- The value of a hexadecimal digit. -/
def hexValue? (c : Char) : Option Nat :=
  if c.isDigit then some (c.toNat - '0'.toNat)
  else if 'a' ≤ c && c ≤ 'f' then some (c.toNat - 'a'.toNat + 10)
  else if 'A' ≤ c && c ≤ 'F' then some (c.toNat - 'A'.toNat + 10)
  else none

/-- The number written by four hexadecimal digits, and the rest.  When fewer than four bytes are left
the text ends too early, whatever they are. -/
def readHex (foreign : Option Char) : List Char → Except Fault (Nat × List Char)
  | a :: b :: c :: d :: rest =>
    match hexValue? a, hexValue? b, hexValue? c, hexValue? d with
    | some a, some b, some c, some d => .ok (((a * 16 + b) * 16 + c) * 16 + d, rest)
    | _, _, _, _ => .error .malformed
  | few =>
    if (few.map (Text.byteCount foreign)).foldl (· + ·) 0 < 4 then .error .truncated
    else .error .malformed

/-- The character that a backslash and a letter stand for. -/
def simpleEscape? : Char → Option Char
  | '\"' => some '\"'
  | '\\' => some '\\'
  | '/' => some '/'
  | 'b' => some '\x08'
  | 'f' => some '\x0c'
  | 'n' => some '\n'
  | 'r' => some '\r'
  | 't' => some '\t'
  | _ => none

/-- What has been read of a text between quotes. -/
structure TextDraft where
  /-- The characters read, the last one first. -/
  reversed : List Char
  /-- A leading surrogate that waits for the escape of its partner. -/
  surrogate : Option Nat
  /-- A surrogate has been found without its partner. -/
  isDamaged : Bool
  /-- A foreign character has been found. -/
  isForeign : Bool

namespace TextDraft

/-- The draft of an empty text. -/
def empty : TextDraft := ⟨[], none, false, false⟩

/-- A character is added; a surrogate that still waits has lost its partner. -/
def push (d : TextDraft) (c : Char) : TextDraft :=
  { d with
    reversed := c :: d.reversed, surrogate := none, isDamaged := d.isDamaged || d.surrogate.isSome }

/-- A code unit is added: two surrogates in order make one character. -/
def pushUnit (d : TextDraft) (unit : Nat) : TextDraft :=
  match d.surrogate with
  | some lead =>
    if 0xDC00 ≤ unit && unit ≤ 0xDFFF then
      let point := (lead - 0xD800) * 1024 + (unit - 0xDC00) + 0x10000
      { d with reversed := Char.ofNat point :: d.reversed, surrogate := none }
    else { d with surrogate := none, isDamaged := true }
  | none =>
    if 0xD800 ≤ unit && unit ≤ 0xDBFF then { d with surrogate := some unit }
    else if 0xDC00 ≤ unit && unit ≤ 0xDFFF then { d with isDamaged := true }
    else d.push (Char.ofNat unit)

/-- The document of a text that has been read to its closing quote. -/
def close (d : TextDraft) : Document :=
  if d.isDamaged || d.surrogate.isSome || d.isForeign then .text (.error .malformed) none
  else .text (.ok (String.ofList d.reversed.reverse)) none

/-- The document of a text that breaks off: the first damage decides for those who ask what it says, and
foreign characters do not matter any more. -/
def breakOff (d : TextDraft) (fault : Fault) : Document :=
  if d.isDamaged then .text (.error .malformed) (some fault)
  else .text (.error fault) (some fault)

end TextDraft

/-- A text after its opening quote. -/
def readText (foreign : Option Char) : Nat → TextDraft → List Char → Document × Option (List Char)
  | _, d, [] => (d.breakOff .truncated, none)
  | 0, d, _ => (d.breakOff .malformed, none)
  | _ + 1, d, '\"' :: rest => (d.close, some rest)
  | fuel + 1, d, '\\' :: rest =>
    match rest with
    | [] => (d.breakOff .truncated, none)
    | 'u' :: rest =>
      match readHex foreign rest with
      | .ok (unit, rest) => readText foreign fuel (d.pushUnit unit) rest
      | .error fault => (d.breakOff fault, none)
    | c :: rest =>
      match simpleEscape? c with
      | some c => readText foreign fuel (d.push c) rest
      | none => (d.breakOff .malformed, none)
  | fuel + 1, d, c :: rest =>
    if c.toNat < 32 then ((d.push c).breakOff .malformed, none)
    else
      let d := d.push c
      readText foreign fuel { d with isForeign := d.isForeign || foreign = some c } rest

/-- The exponent of a number, if one stands here. -/
def readExponent (s : List Char) : Except Fault (Option Int × List Char) :=
  match s with
  | mark :: rest =>
    if mark ≠ 'e' ∧ mark ≠ 'E' then .ok (none, s)
    else
      let (negative, rest) :=
        match rest with
        | '-' :: rest => (true, rest)
        | '+' :: rest => (false, rest)
        | rest => (false, rest)
      let digits := rest.takeWhile Char.isDigit
      match digits, rest with
      | [], [] => .error .truncated
      | [], _ => .error .malformed
      | _, _ =>
        let n : Int := Decimal.digitsValue digits
        .ok (some (if negative then -n else n), rest.dropWhile Char.isDigit)
  | [] => .ok (none, s)

/-- The digits after a point, if one stands here. -/
def readFraction (s : List Char) : Except Fault (Option (List Char) × List Char) :=
  match s with
  | '.' :: rest =>
    let digits := rest.takeWhile Char.isDigit
    match digits, rest with
    | [], [] => .error .truncated
    | [], _ => .error .malformed
    | _, _ => .ok (some digits, rest.dropWhile Char.isDigit)
  | _ => .ok (none, s)

/-- A number without its sign: no zero stands before another digit. -/
def readNumeral (negative : Bool) (s : List Char) : Except Fault (Numeral × List Char) :=
  let whole := s.takeWhile Char.isDigit
  let rest := s.dropWhile Char.isDigit
  match whole with
  | [] => .error (if s.isEmpty then .truncated else .malformed)
  | '0' :: _ :: _ => .error .malformed
  | _ => do
    let (fraction, rest) ← readFraction rest
    let (exponent, rest) ← readExponent rest
    let digits := fraction.getD []
    .ok (⟨negative, Decimal.digitsValue (whole ++ digits), exponent.getD 0 - digits.length,
      fraction.isNone && exponent.isNone⟩, rest)

/-- A word after its first letter. -/
def readWord (d : Document) : List Char → List Char → Document × Option (List Char)
  | [], rest => (d, some rest)
  | _ :: _, [] => (.broken .truncated true, none)
  | c :: word, x :: rest => if c = x then readWord d word rest else (.broken .malformed true, none)

/-- A number. -/
def readNumber (negative : Bool) (s : List Char) : Document × Option (List Char) :=
  match readNumeral negative s with
  | .ok (n, rest) => (.number n, some rest)
  | .error fault => (.brokenNumber fault, none)

section Values

variable (foreign : Option Char)

mutual

/-- A value, after blanks. -/
def readValue : Nat → List Char → Document × Option (List Char)
  | 0, _ => (.broken .malformed false, none)
  | fuel + 1, s =>
    match skipBlanks s with
    | [] => (.broken .truncated false, none)
    | 'n' :: rest => readWord .null ['u', 'l', 'l'] rest
    | 't' :: rest => readWord (.bool true) ['r', 'u', 'e'] rest
    | 'f' :: rest => readWord (.bool false) ['a', 'l', 's', 'e'] rest
    | '\"' :: rest => readText foreign rest.length .empty rest
    | '-' :: rest => readNumber true rest
    | '[' :: rest =>
      let (items, ending, rest) := readItems fuel true rest
      (.list items ending, rest)
    | '\x7b' :: rest =>
      let (members, ending, rest) := readMembers fuel true rest
      (.object members ending, rest)
    | c :: rest =>
      if c.isDigit then readNumber false (c :: rest) else (.broken .malformed false, none)

/-- The items of a list up to its end: the first one, or one that follows a comma. -/
def readItems : Nat → Bool → List Char → List Document × Option Fault × Option (List Char)
  | 0, _, _ => ([], some .malformed, none)
  | fuel + 1, isFirst, s =>
    match skipBlanks s with
    | [] => ([], some .truncated, none)
    | ']' :: rest => ([], none, some rest)
    | c :: rest =>
      if isFirst then
        readItem fuel (c :: rest)
      else if c = ',' then
        readItem fuel rest
      else ([], some .malformed, none)

/-- An item of a list and those after it. -/
def readItem : Nat → List Char → List Document × Option Fault × Option (List Char)
  | 0, _ => ([], some .malformed, none)
  | fuel + 1, s =>
    match readValue fuel s with
    | (d, none) => ([d], none, none)
    | (d, some rest) =>
      let (items, ending, rest) := readItems fuel false rest
      (d :: items, ending, rest)

/-- The members of an object up to its end. -/
def readMembers : Nat → Bool → List Char →
    List (Document × Document) × Option Fault × Option (List Char)
  | 0, _, _ => ([], some .malformed, none)
  | fuel + 1, isFirst, s =>
    match skipBlanks s with
    | [] => ([], some .truncated, none)
    | '\x7d' :: rest => ([], none, some rest)
    | c :: rest =>
      if isFirst then
        readMember fuel (c :: rest)
      else if c = ',' then
        readMember fuel rest
      else ([], some .malformed, none)

/-- A member of an object and those after it.  Where a name is expected, a value of another kind is
kept as what stands there. -/
def readMember : Nat → List Char → List (Document × Document) × Option Fault × Option (List Char)
  | 0, _ => ([], some .malformed, none)
  | fuel + 1, s =>
    match readValue fuel s with
    | (name, none) => ([(name, .broken .malformed false)], none, none)
    | (.text content skipped, some rest) =>
      match skipBlanks rest with
      | [] => ([(.text content skipped, .broken .truncated false)], none, none)
      | ':' :: rest =>
        match readValue fuel rest with
        | (d, none) => ([(.text content skipped, d)], none, none)
        | (d, some rest) =>
          let (members, ending, rest) := readMembers fuel false rest
          ((.text content skipped, d) :: members, ending, rest)
      | _ => ([(.text content skipped, .broken .malformed false)], none, none)
    | (name, some _) => ([(name, .broken .malformed false)], none, none)

end

end Values

namespace Document

/-- The document at the start of a text, and what follows it. -/
def ofText (t : Decoded) : Document × Option (List Char) :=
  readValue t.foreign (3 * t.chars.length + 4) t.chars

/-- What a reader of documents makes of a whole text: nothing but blanks may follow. -/
def readAll {α : Type} (shape : Document → Except Fault α) (t : Decoded) : Except Fault α :=
  match ofText t with
  | (d, rest) => do
    let a ← shape d
    match rest with
    | none => .error .malformed
    | some rest => if (skipBlanks rest).isEmpty then .ok a else .error .malformed

end Document

/-- The value written by a text, if it is JSON. -/
def Value.ofText? (t : Decoded) : Option Value :=
  match Document.ofText t with
  | (d, some rest) => if (skipBlanks rest).isEmpty then d.value? else none
  | _ => none

end TrafficWatch.Json
