/-!
# Text — Bytes

Bytes as text.  Bytes that are well-formed read as the text they encode.  Others read as well
(`Decoded.ofBytes`): each byte that is part of no character reads as a foreign character, one that does
not occur otherwise.
-/

namespace TrafficWatch.Text

/-- Characters, among which one may be foreign: it stands for bytes that are part of no character. -/
structure Decoded where
  chars : List Char
  foreign : Option Char := none

/-- A text, in which no character is foreign. -/
instance : Coe (List Char) Decoded where
  coe chars := ⟨chars, none⟩

/-- How many bytes a character stands for. -/
def byteCount (foreign : Option Char) (c : Char) : Nat :=
  if foreign = some c then 1 else c.utf8Size

/-- The character that some bytes encode, if they encode exactly one. -/
def oneChar? (bytes : List UInt8) : Option Char :=
  match String.fromUTF8? ⟨bytes.toArray⟩ with
  | some s =>
    match s.toList with
    | [c] => some c
    | _ => none
  | none => none

/-- The character at the start of some bytes, and how many bytes it takes. -/
def leadingChar? (bytes : List UInt8) : Option (Char × Nat) :=
  [1, 2, 3, 4].findSome? fun n => (oneChar? (bytes.take n)).map (·, n)

/-- The characters of bytes, with none for each byte that is part of no character. -/
def readable : Nat → List UInt8 → List (Option Char)
  | _, [] => []
  | 0, _ => []
  | fuel + 1, bytes =>
    match leadingChar? bytes with
    | some (c, n) => some c :: readable fuel (bytes.drop n)
    | none => none :: readable fuel (bytes.drop 1)

/-- The first of the characters for private use, from which foreign ones are taken. -/
def firstPrivate : Nat := 0xF0000

/-- A character that is not among others. -/
def charOutside (cs : List Char) : Char :=
  (((List.range (cs.length + 1)).map fun n => Char.ofNat (firstPrivate + n)).find? fun c =>
    !cs.contains c).getD '\x00'

/-- The text that bytes encode, if they are well-formed. -/
def ofBytes? (bytes : ByteArray) : Option String :=
  String.fromUTF8? bytes

/-- The characters of bytes, well-formed or not. -/
def Decoded.ofBytes (bytes : ByteArray) : Decoded :=
  match ofBytes? bytes with
  | some s => ⟨s.toList, none⟩
  | none =>
    let found := readable bytes.size bytes.data.toList
    let foreign := charOutside (found.filterMap id)
    ⟨found.map (·.getD foreign), some foreign⟩

end TrafficWatch.Text
