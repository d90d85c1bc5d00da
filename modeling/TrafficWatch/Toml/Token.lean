import TrafficWatch.Toml.Moment
import TrafficWatch.Setup.Node

/-!
# Toml — Token

The smallest parts of a document: blanks, comments and ends of lines, keys, texts in the four kinds of
quotes, and the words that stand for numbers, truth values, dates and times.  A reader answers what it
has read with the rest of the document, or nothing where the document breaks the rules.
-/

namespace TrafficWatch.Toml

open Setup (Node)

/-! ### Between the tokens -/

/-- Blanks within a line. -/
def isSpace (c : Char) : Bool :=
  c = ' ' || c = '\t'

/-- The rest after blanks. -/
def skipSpaces (s : List Char) : List Char :=
  s.dropWhile isSpace

/-- Characters that may stand in a comment or between quotes. -/
def isPlain (c : Char) : Bool :=
  (32 ≤ c.toNat && c.toNat ≠ 127) || c = '\t'

/-- The rest after an end of line, if there is one. -/
def afterLineEnd? : List Char → Option (List Char)
  | '\n' :: rest => some rest
  | '\r' :: '\n' :: rest => some rest
  | _ => none

/-- The rest after a comment, if there is one; the end of the line is left. -/
def skipComment : List Char → List Char
  | '#' :: rest => rest.dropWhile isPlain
  | s => s

/-- The rest after the end of a line on which nothing but a comment may follow. -/
def finishLine (s : List Char) : Option (List Char) :=
  match skipComment (skipSpaces s) with
  | [] => some []
  | s => afterLineEnd? s

/-- The rest after blanks, comments and ends of lines. -/
def skipLines : Nat → List Char → List Char
  | 0, s => s
  | fuel + 1, s =>
    let s := skipComment (skipSpaces s)
    match afterLineEnd? s with
    | some rest => skipLines fuel rest
    | none => s

/-! ### Texts -/

/-- The character with a given code point, if there is one. -/
def charOf? (n : Nat) : Option Char :=
  if n.isValidChar then some (Char.ofNat n) else none

/-- The value of hexadecimal digits. -/
def hexNumber? (digits : List Char) : Option Nat :=
  digits.foldlM (fun n c =>
    if c.isDigit then some (16 * n + (c.toNat - '0'.toNat))
    else if 'a' ≤ c && c ≤ 'f' then some (16 * n + (c.toNat - 'a'.toNat + 10))
    else if 'A' ≤ c && c ≤ 'F' then some (16 * n + (c.toNat - 'A'.toNat + 10))
    else none) 0

/-- A character written by as many hexadecimal digits as given, and the rest. -/
def readCodePoint (width : Nat) (s : List Char) : Option (Char × List Char) := do
  let digits := s.take width
  if digits.length < width then none
  else
    let n ← hexNumber? digits
    let c ← charOf? n
    return (c, s.drop width)

/-- The character that a backslash and what follows stand for, and the rest. -/
def readEscape : List Char → Option (Char × List Char)
  | 'b' :: s => some ('\x08', s)
  | 't' :: s => some ('\t', s)
  | 'n' :: s => some ('\n', s)
  | 'f' :: s => some ('\x0c', s)
  | 'r' :: s => some ('\r', s)
  | 'e' :: s => some ('\x1b', s)
  | '\"' :: s => some ('\"', s)
  | '\\' :: s => some ('\\', s)
  | 'x' :: s => readCodePoint 2 s
  | 'u' :: s => readCodePoint 4 s
  | 'U' :: s => readCodePoint 8 s
  | _ => none

/-- Characters are put in front of what has been read. -/
def prepend (cs : List Char) : Option (List Char × List Char) → Option (List Char × List Char)
  | some (text, rest) => some (cs ++ text, rest)
  | none => none

/-- A text on one line up to its closing quote; `escapes` tells whether backslashes mean anything. -/
def readLineText (quote : Char) (escapes : Bool) :
    Nat → List Char → Option (List Char × List Char)
  | 0, _ => none
  | _ + 1, [] => none
  | fuel + 1, c :: s =>
    if c = quote then some ([], s)
    else if escapes && c = '\\' then do
      let (c, s) ← readEscape s
      prepend [c] (readLineText quote escapes fuel s)
    else if isPlain c then prepend [c] (readLineText quote escapes fuel s)
    else none

/-- The rest after blanks and ends of lines. -/
def skipBlankLines : Nat → List Char → List Char
  | 0, s => s
  | fuel + 1, s =>
    match afterLineEnd? (skipSpaces s) with
    | some rest => skipBlankLines fuel rest
    | none => skipSpaces s

/-- The rest after a backslash at the end of a line: all blanks and ends of lines that follow. -/
def afterContinuation? (s : List Char) : Option (List Char) :=
  (afterLineEnd? (skipSpaces s)).map fun rest => skipBlankLines rest.length rest

/-- A text over several lines up to its three closing quotes; up to two more quotes in front of them
belong to the text. -/
def readBlockText (quote : Char) (escapes : Bool) :
    Nat → List Char → Option (List Char × List Char)
  | 0, _ => none
  | _ + 1, [] => none
  | fuel + 1, c :: s =>
    if c = quote then
      let more := (s.takeWhile (· = quote)).length
      if more < 2 then prepend [c] (readBlockText quote escapes fuel s)
      else if 4 < more then none
      else some (List.replicate (more - 2) quote, s.drop more)
    else if escapes && c = '\\' then
      match afterContinuation? s with
      | some s => readBlockText quote escapes fuel s
      | none => do
        let (c, s) ← readEscape s
        prepend [c] (readBlockText quote escapes fuel s)
    else
      match afterLineEnd? (c :: s) with
      | some rest =>
        prepend (if c = '\r' then ['\r', '\n'] else ['\n']) (readBlockText quote escapes fuel rest)
      | none => if isPlain c then prepend [c] (readBlockText quote escapes fuel s) else none

/-- A text whose first quote has been read.  A line end right after three quotes does not belong to
the text. -/
def readText (quote : Char) (s : List Char) : Option (List Char × List Char) :=
  let escapes := quote = '\"'
  match s with
  | a :: b :: rest =>
    if a = quote && b = quote then
      readBlockText quote escapes (rest.length + 1) ((afterLineEnd? rest).getD rest)
    else readLineText quote escapes (s.length + 1) s
  | _ => readLineText quote escapes (s.length + 1) s

/-! ### Keys -/

/-- One name of a key, and the rest. -/
def readName : List Char → Option (String × List Char)
  | [] => none
  | c :: s =>
    if c = '\"' || c = '\'' then
      (readLineText c (c = '\"') (s.length + 1) s).map fun (name, s) => (String.ofList name, s)
    else
      let name := (c :: s).takeWhile Setup.isNameChar
      if name.isEmpty then none
      else some (String.ofList name, (c :: s).dropWhile Setup.isNameChar)

/-- The greatest number of names in a key. -/
def maxNames : Nat := 80

/-- Names with points between them, as many as given at most, and the rest after blanks. -/
def readNames : Nat → List Char → Option (List String × List Char)
  | 0, _ => none
  | limit + 1, s => do
    let (name, s) ← readName (skipSpaces s)
    match skipSpaces s with
    | '.' :: s =>
      let (names, s) ← readNames limit s
      return (name :: names, s)
    | s => return ([name], s)

/-- The names of a key, and the rest after blanks. -/
def readKey (s : List Char) : Option (List String × List Char) :=
  readNames maxNames s

/-! ### Words -/

/-- Characters of words. -/
def isWordChar (c : Char) : Bool :=
  c.isAlphanum || c = '_' || c = '+' || c = '-' || c = '.' || c = ':'

/-- Digits in which single underscores may stand between two digits, without the underscores. -/
def plainDigits? (isDigit : Char → Bool) : List Char → Option (List Char)
  | [] => none
  | [c] => if isDigit c then some [c] else none
  | c :: '_' :: rest => if isDigit c then (plainDigits? isDigit rest).map (c :: ·) else none
  | c :: rest => if isDigit c then (plainDigits? isDigit rest).map (c :: ·) else none

/-- A number, if it fits a machine word. -/
def wordNumber (n : Int) : Option Node :=
  if -(twoTo 63 : Int) ≤ n && n < twoTo 63 then some (.whole n) else none

/-- Digits in another base as a number. -/
def readBased (base : Nat) (isDigit : Char → Bool) (s : List Char) : Option Node := do
  let digits ← plainDigits? isDigit s
  let value := digits.foldl (fun n c => base * n + (hexNumber? [c]).getD 0) 0
  wordNumber value

/-- Whether digits begin with a zero that stands before another digit. -/
def hasIdleZero : List Char → Bool
  | '0' :: _ :: _ => true
  | _ => false

/-- The exponent of a number, a letter in front; none stands for zero. -/
def readExponent : List Char → Option Int
  | [] => some 0
  | mark :: s =>
    if mark ≠ 'e' && mark ≠ 'E' then none
    else do
      let (negative, s) := match s with
        | '-' :: s => (true, s)
        | '+' :: s => (false, s)
        | s => (false, s)
      let digits ← plainDigits? Char.isDigit s
      let n : Int := Decimal.digitsValue digits
      return if negative then -n else n

/-- Characters of digits with underscores between them. -/
def isDigitOrScore (c : Char) : Bool :=
  c.isDigit || c = '_'

/-- A decimal number without its sign: a whole number, or one with a point or an exponent that does not
lie beyond every double. -/
def readDecimal (negative : Bool) (s : List Char) : Option Node := do
  let digits ← plainDigits? Char.isDigit (s.takeWhile isDigitOrScore)
  if hasIdleZero digits then none
  else
    let rest := s.dropWhile isDigitOrScore
    let n := Decimal.digitsValue digits
    match rest with
    | [] => wordNumber (if negative then -n else n)
    | '.' :: rest =>
      let places ← plainDigits? Char.isDigit (rest.takeWhile isDigitOrScore)
      let e ← readExponent (rest.dropWhile isDigitOrScore)
      finite (Decimal.nearest negative (Decimal.digitsValue (digits ++ places)) (e - places.length))
    | rest =>
      let e ← readExponent rest
      finite (Decimal.nearest negative n e)
where
  finite (x : Float) : Option Node :=
    if x.isFinite then some (.real x) else none

/-- A number after its sign. -/
def readSigned (negative : Bool) (s : List Char) : Option Node :=
  if s = "inf".toList then some (.real (Decimal.ofSignAndBits negative (2047 * twoTo 52)))
  else if s = "nan".toList then
    some (.real (Decimal.ofSignAndBits negative (2047 * twoTo 52 + twoTo 51)))
  else readDecimal negative s

/-- Digits of a number in base sixteen. -/
def isHexDigit (c : Char) : Bool :=
  (hexNumber? [c]).isSome

/-- What a word stands for. -/
def wordNode (s : List Char) : Option Node :=
  if s = "true".toList then some (.truth true)
  else if s = "false".toList then some (.truth false)
  else
    match s with
    | '+' :: s => readSigned false s
    | '-' :: s => readSigned true s
    | '0' :: 'x' :: s => readBased 16 isHexDigit s
    | '0' :: 'o' :: s => readBased 8 (fun c => '0' ≤ c && c ≤ '7') s
    | '0' :: 'b' :: s => readBased 2 (fun c => c = '0' || c = '1') s
    | s =>
      match readSigned false s with
      | some n => some n
      | none => (readMoment s).map fun t => .text (String.ofList t)

/-- A word and the rest; a date and a time with a blank between them are one word. -/
def takeWord (s : List Char) : List Char × List Char :=
  let word := s.takeWhile isWordChar
  let rest := s.dropWhile isWordChar
  match rest with
  | ' ' :: c :: more =>
    if c.isDigit && (readDate word).any (·.2.isEmpty) then
      (word ++ ' ' :: (c :: more).takeWhile isWordChar, (c :: more).dropWhile isWordChar)
    else (word, rest)
  | _ => (word, rest)

end TrafficWatch.Toml
