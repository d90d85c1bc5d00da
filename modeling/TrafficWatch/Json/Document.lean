import TrafficWatch.Json.Value

/-!
# Json — Document

A JSON text as far as it can be read.  Reading stops at the first place where the text is no JSON,
and that place is kept in the document as a `Fault`; what stands before it can still be looked at.
So a reader who asks for a shape meets whichever comes first, a value of another shape or the fault,
and the two need not be told apart while the text is scanned.

Some faults are met only by those who ask for the contents of what they stand in, and all others skip
it (`Document.fault?`): an unpaired surrogate escape or a foreign byte in a text, and a number beyond
every double.
-/

namespace TrafficWatch.Json

/-- Why a JSON text cannot be read. -/
inductive Fault where
  /-- The text is no JSON. -/
  | malformed
  /-- The text ends too early. -/
  | truncated
  /-- The text is JSON of another shape. -/
  | mismatched
deriving Repr, DecidableEq

/-- The word for a kind of fault. -/
def Fault.category : Fault → String
  | malformed => "syntax"
  | truncated => "eof"
  | mismatched => "data"

/-- A number as it is written. -/
structure Numeral where
  negative : Bool
  significand : Nat
  exponent : Int
  /-- It has neither a point nor an exponent. -/
  isWhole : Bool
deriving Repr, DecidableEq

/-- The value of a numeral, unless it lies beyond every double.  Whole numbers that fit a machine word
stay whole, but minus zero is a double. -/
def Numeral.number? (n : Numeral) : Option Number :=
  if n.isWhole && !n.negative && n.significand < twoTo 64 then some (.natural n.significand)
  else if n.isWhole && n.negative && 0 < n.significand && n.significand ≤ twoTo 63 then
    some (.negative n.significand)
  else
    let x := Decimal.nearest n.negative n.significand n.exponent
    if x.isFinite then some (.real x) else none

/-- A JSON text as far as it can be read. -/
inductive Document where
  | null
  | bool (b : Bool)
  | number (n : Numeral)
  /-- What the text says, and the fault that even one who skips it meets. -/
  | text (content : Except Fault String) (skipped : Option Fault)
  | list (items : List Document) (ending : Option Fault)
  /-- Names are documents, for any value can stand where a name is expected. -/
  | object (members : List (Document × Document)) (ending : Option Fault)
  /-- No value, or one that has started and breaks off. -/
  | broken (fault : Fault) (isStarted : Bool)
  /-- A number that breaks off, with the fault met by those who ask for it. -/
  | brokenNumber (fault : Fault)

namespace Document

/-- The fault met by one who skips a document that stands where a name is expected. -/
def nameFault? : Document → Option Fault
  | text _ skipped => skipped
  | broken fault false => some fault
  | _ => some .malformed

mutual

/-- The fault met by one who skips the document.  Where a number breaks off does not matter to them. -/
def fault? : Document → Option Fault
  | null | bool _ | number _ => none
  | text _ skipped => skipped
  | brokenNumber _ => some .malformed
  | list items ending => (faultOfItems? items).or ending
  | object members ending => (faultOfMembers? members).or ending
  | broken fault _ => some fault

/-- The first fault met among the items of a list. -/
def faultOfItems? : List Document → Option Fault
  | [] => none
  | d :: rest => d.fault?.or (faultOfItems? rest)

/-- The first fault met among the members of an object. -/
def faultOfMembers? : List (Document × Document) → Option Fault
  | [] => none
  | (name, d) :: rest => (name.nameFault?.or d.fault?).or (faultOfMembers? rest)

end

/-- The fault of a document that has not the shape asked for.  Numbers and texts are read before their
shape is judged, lists and objects are not. -/
def mismatch : Document → Fault
  | broken fault _ | brokenNumber fault => fault
  | number n => if n.number?.isSome then .mismatched else .malformed
  | text (.error fault) _ => fault
  | _ => .mismatched

/-- A number, which may be whole. -/
def float : Document → Except Fault Float
  | number n =>
    match n.number? with
    | some v => .ok v.toFloat
    | none => .error .malformed
  | d => .error d.mismatch

/-- A whole number from zero to below `bound`. -/
def naturalBelow (bound : Nat) (d : Document) : Except Fault Nat :=
  match d with
  | number n =>
    match n.number? with
    | some (.natural v) => if v < bound then .ok v else .error .mismatched
    | _ => .error d.mismatch
  | d => .error d.mismatch

/-- A truth value. -/
def truth : Document → Except Fault Bool
  | bool b => .ok b
  | d => .error d.mismatch

/-- A text. -/
def string : Document → Except Fault String
  | text content _ => content
  | d => .error d.mismatch

/-- A text or null. -/
def string? : Document → Except Fault (Option String)
  | null => .ok none
  | d => d.string.map some

/-- Items of one shape. -/
def listOf {α : Type} (item : Document → Except Fault α) : Document → Except Fault (List α)
  | list items ending => do
    let read ← items.mapM item
    match ending with
    | some fault => .error fault
    | none => .ok read
  | d => .error d.mismatch

/-- One of several words, written as a text or as the only member of an object whose value is null. -/
def choice {α : Type} (word? : String → Option α) : Document → Except Fault α
  | text content _ => content.bind named
  | object ((text content _, value) :: rest) ending => do
    let chosen ← content.bind named
    match value with
    | null =>
      match rest, ending with
      | [], none => .ok chosen
      | [], some fault => .error fault
      | _, _ => .error .malformed
    | d => .error d.mismatch
  | object ((broken fault false, _) :: _) _ => .error fault
  | object [] (some fault) => .error fault
  | broken fault false => .error fault
  | _ => .error .malformed
where
  named (s : String) : Except Fault α :=
    match word? s with
    | some a => .ok a
    | none => .error .mismatched

/-- One field of a record that is being read: its name, and what its value adds to the draft.  A field
that has been read before is not read again. -/
structure Field (δ : Type) where
  name : String
  isRead : δ → Bool
  read : Document → δ → Except Fault δ

/-- The members of an object, one by one, as fields of a draft; members of other names are skipped. -/
def readMembers {δ : Type} (fields : List (Field δ)) :
    List (Document × Document) → Option Fault → δ → Except Fault δ
  | [], none, draft => .ok draft
  | [], some fault, _ => .error fault
  | (name, value) :: rest, ending, draft =>
    match name with
    | text (.ok word) _ =>
      match fields.find? (·.name == word) with
      | some field =>
        if field.isRead draft then .error .mismatched
        else do
          let draft ← field.read value draft
          readMembers fields rest ending draft
      | none =>
        match value.fault? with
        | some fault => .error fault
        | none => readMembers fields rest ending draft
    | text (.error fault) _ => .error fault
    | broken fault false => .error fault
    | _ => .error .malformed

/-- The items of a list as the fields of a draft, in order; there have to be as many. -/
def readItems {δ : Type} : List (Field δ) → List Document → Option Fault → δ → Except Fault δ
  | [], [], none, draft => .ok draft
  | [], [], some fault, _ => .error fault
  | [], _ :: _, _, _ => .error .malformed
  | _ :: _, [], some fault, _ => .error fault
  | _ :: _, [], none, _ => .error .mismatched
  | field :: fields, item :: items, ending, draft => do
    let draft ← field.read item draft
    readItems fields items ending draft

/-- A record, written as an object or as the list of its fields. -/
def record {δ α : Type} (fields : List (Field δ)) (empty : δ) (finish : δ → Option α) :
    Document → Except Fault α
  | object members ending => do
    let draft ← readMembers fields members ending empty
    match finish draft with
    | some a => .ok a
    | none => .error .mismatched
  | list items ending => do
    let draft ← readItems fields items ending empty
    match finish draft with
    | some a => .ok a
    | none => .error .mismatched
  | d => .error d.mismatch

mutual

/-- The value of a document without any fault. -/
def value? : Document → Option Value
  | null => some .null
  | bool b => some (.bool b)
  | number n => n.number?.map .number
  | text (.ok s) none => some (.text s)
  | list items none => (valuesOf? items).map .list
  | object members none => (membersOf? members).map .object
  | _ => none

/-- The values of the items of a list. -/
def valuesOf? : List Document → Option (List Value)
  | [] => some []
  | d :: rest =>
    match d.value?, valuesOf? rest with
    | some v, some vs => some (v :: vs)
    | _, _ => none

/-- The values of the members of an object. -/
def membersOf? : List (Document × Document) → Option (List (String × Value))
  | [] => some []
  | (text (.ok name) none, d) :: rest =>
    match d.value?, membersOf? rest with
    | some v, some vs => some ((name, v) :: vs)
    | _, _ => none
  | _ => none

end

end Document

end TrafficWatch.Json
