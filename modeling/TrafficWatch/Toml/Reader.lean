import TrafficWatch.Toml.Draft
import TrafficWatch.Toml.Token

/-!
# Toml — Reader

From a document to the table it describes.  A document is a list of lines, each a header or a key with
its value; a document that breaks a rule anywhere describes nothing (`Toml.ofText?`).  The readers that
call each other recur on a bound that the length of the document supplies.
-/

namespace TrafficWatch.Toml

open Setup (Node)

/-- How many brackets and braces may stand open around a value. -/
def maxNesting : Nat := 80

mutual

/-- A value and the rest; `room` more brackets and braces may be opened. -/
def readValue : Nat → Nat → List Char → Option (Node × List Char)
  | 0, _, _ => none
  | fuel + 1, room, s =>
    match s, room with
    | '\"' :: rest, _ => (readText '\"' rest).map fun (t, rest) => (.text (String.ofList t), rest)
    | '\'' :: rest, _ => (readText '\'' rest).map fun (t, rest) => (.text (String.ofList t), rest)
    | '[' :: _, 0 => none
    | '\x7b' :: _, 0 => none
    | '[' :: rest, room + 1 => (readItems fuel room rest).map fun (items, rest) => (.list items, rest)
    | '\x7b' :: rest, room + 1 =>
      (readInline fuel room [] rest).map fun (ms, rest) => (.table (nodesOf ms), rest)
    | s, _ =>
      let (word, rest) := takeWord s
      (wordNode word).map (·, rest)

/-- The items of a list up to its closing bracket. -/
def readItems : Nat → Nat → List Char → Option (List Node × List Char)
  | 0, _, _ => none
  | fuel + 1, room, s =>
    match skipLines s.length s with
    | ']' :: rest => some ([], rest)
    | s => do
      let (item, s) ← readValue fuel room s
      match skipLines s.length s with
      | ']' :: rest => return ([item], rest)
      | ',' :: rest =>
        let (items, rest) ← readItems fuel room rest
        return (item :: items, rest)
      | _ => none

/-- The keys and values of a table up to its closing brace, added to those before them.  Lines may end
anywhere but within a key, and a comma may follow the last value. -/
def readInline : Nat → Nat → Members → List Char → Option (Members × List Char)
  | 0, _, _, _ => none
  | fuel + 1, room, ms, s =>
    match skipLines s.length s with
    | '\x7d' :: rest => some (ms, rest)
    | s => do
      let (key, s) ← readKey s
      match skipLines s.length s with
      | '=' :: s =>
        let (n, s) ← readValue fuel room (skipLines s.length s)
        let ms ← ms.assign n key
        match skipLines s.length s with
        | '\x7d' :: rest => return (ms, rest)
        | ',' :: rest => readInline fuel room ms rest
        | _ => none
      | _ => none

end

/-- A key and its value on a line of their own, and the rest. -/
def readAssignment (s : List Char) : Option (List String × Node × List Char) := do
  let (key, s) ← readKey s
  match s with
  | '=' :: s =>
    let (n, s) ← readValue (2 * s.length + 2) maxNesting (skipSpaces s)
    return (key, n, s)
  | _ => none

/-- What has been read of a document. -/
structure Progress where
  root : Members
  /-- The way to the table that the last header has opened. -/
  header : List String

/-- A header after its brackets have been taken off. -/
def Progress.open (p : Progress) (key : List String) (isRow : Bool) : Option Progress := do
  let name ← key.getLast?
  let change := if isRow then Members.stateNext name else Members.state name
  let root ← p.root.atHeader change key.dropLast
  return ⟨root, key⟩

/-- A value is given to a key of the table that is open. -/
def Progress.assign (p : Progress) (key : List String) (n : Node) : Option Progress := do
  let root ← p.root.atHeader (Members.assign n key) p.header
  return { p with root }

/-- A header, and the rest after it. -/
def readHeader (p : Progress) (s : List Char) : Option (Progress × List Char) :=
  match s with
  | '[' :: s => do
    let (key, s) ← readKey s
    match s with
    | ']' :: ']' :: s => return (← p.open key true, s)
    | _ => none
  | s => do
    let (key, s) ← readKey s
    match s with
    | ']' :: s => return (← p.open key false, s)
    | _ => none

/-- The lines of a document, one after the other. -/
def readLines : Nat → Progress → List Char → Option Progress
  | 0, _, _ => none
  | fuel + 1, p, s =>
    match skipLines s.length s with
    | [] => some p
    | '[' :: s => do
      let (p, s) ← readHeader p s
      let s ← finishLine s
      readLines fuel p s
    | s => do
      let (key, n, s) ← readAssignment s
      let p ← p.assign key n
      let s ← finishLine s
      readLines fuel p s

/-- The mark that may stand in front of a document. -/
def byteOrderMark : Char := '\uFEFF'

/-- A text without the mark in front of it. -/
def withoutMark : List Char → List Char
  | c :: rest => if c = byteOrderMark then rest else c :: rest
  | [] => []

/-- The members of the table that a document describes. -/
def ofText? (text : List Char) : Option (List (String × Node)) :=
  (readLines (text.length + 2) ⟨[], []⟩ (withoutMark text)).map fun p => nodesOf p.root

end TrafficWatch.Toml
