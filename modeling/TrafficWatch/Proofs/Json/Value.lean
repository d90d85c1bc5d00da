import TrafficWatch.Proofs.Decimal.Unblank
import TrafficWatch.Proofs.Json.Reader

/-!
# Json — Value

What the text of a value is read as.  `Value.document` is that document: numbers that are not finite
are null in it, and everything else is kept.  `Value.reads_pretty` says that the text over several
lines is read as this document, by induction on the value, and `Value.reads_compact` the same of the
text on one line, which is one line indeed (`Value.unbroken_compact`).
-/

namespace TrafficWatch.Json

/-- What the text of a number is read as. -/
def Number.document : Number → Document
  | natural n => .number ⟨false, n, 0, true⟩
  | negative n => .number ⟨true, n, 0, true⟩
  | real x => (Document.ofText (Number.real x).render).1

theorem Number.render_real {x : Float} (hx : x.isFinite = true) :
    (Number.real x).render = numberLayout.render x :=
  if_pos hx

theorem Number.document_infinite {x : Float} (hx : x.isFinite = false) :
    (Number.real x).document = .null := by
  have hrender : (Number.real x).render = "null".toList := if_neg (by simp [hx])
  rw [document, hrender]
  rfl

/-- A finite double is read as a numeral of its value. -/
theorem Number.document_finite {x : Float} (hx : x.isFinite = true) :
    ∃ n : Numeral, n.IsDouble x ∧ (Number.real x).document = .number n := by
  obtain ⟨n, hn, hread⟩ := exists_reads_render hx
  refine ⟨n, hn, ?_⟩
  rw [document, render_real hx, hread.ofText]

theorem Number.reads_render (n : Number) : Reads n.render n.document := by
  cases n with
  | natural n => exact Reads.whole false n
  | negative n => exact Reads.whole true n
  | real x =>
      cases hx : x.isFinite with
      | false =>
          rw [document_infinite hx, render, hx]
          exact Reads.null
      | true =>
          obtain ⟨n, -, hread⟩ := exists_reads_render hx
          rw [document, render_real hx, hread.ofText]
          exact hread

namespace Value

mutual

/-- What the text of a value is read as. -/
def document : Value → Document
  | null => .null
  | bool b => .bool b
  | number n => n.document
  | text s => .text (.ok s) none
  | list items => .list (documents items) none
  | object members => .object (memberDocuments members) none

/-- What the texts of the items of a list are read as. -/
def documents : List Value → List Document
  | [] => []
  | v :: rest => v.document :: documents rest

/-- What the texts of the members of an object are read as. -/
def memberDocuments : List (String × Value) → List (Document × Document)
  | [] => []
  | (name, v) :: rest => (.text (.ok name) none, v.document) :: memberDocuments rest

end

theorem blanks_lineBreak (level : Nat) : Blanks (lineBreak level) := by
  intro c hc
  rcases List.mem_cons.mp hc with rfl | hc
  · rfl
  · rw [List.eq_of_mem_replicate hc]
    rfl

mutual

/-- The text of a value at a level is read as its document. -/
theorem reads_prettyAt (level : Nat) : ∀ v : Value, Reads (v.prettyAt level) v.document
  | null => Reads.null
  | bool b => Reads.bool b
  | number n => n.reads_render
  | text s => Reads.quoted s
  | list [] => Reads.list .nil .nil .nil .nil
  | list (v :: rest) => by
      have h := Reads.list (reads_prettyItems (level + 1) (v :: rest))
        (blanks_lineBreak (level + 1))
        (blanks_lineBreak (level + 1)) (blanks_lineBreak level)
      rw [prettyAt, document]
      · simpa only [List.cons_append, List.append_assoc] using h
      · exact List.cons_ne_nil _ _
  | object [] => Reads.object .nil .nil .nil .nil
  | object (m :: rest) => by
      have h := Reads.object (readsOne_prettyMembers (level + 1) (m :: rest))
        (blanks_lineBreak (level + 1)) (blanks_lineBreak (level + 1)) (blanks_lineBreak level)
      rw [prettyAt, document]
      · simpa only [List.cons_append, List.append_assoc] using h
      · exact List.cons_ne_nil _ _

theorem reads_prettyItems (level : Nat) :
    ∀ items : List Value, List.Forall₂ Reads (prettyItems level items) (documents items)
  | [] => .nil
  | v :: rest => .cons (reads_prettyAt level v) (reads_prettyItems level rest)

theorem readsOne_prettyMembers (level : Nat) : ∀ members : List (String × Value),
    List.Forall₂ (ReadsOne '\x7d' (readMembers none) (readMember none))
      (prettyMembers level members)
      (memberDocuments members)
  | [] => .nil
  | (name, v) :: rest =>
      .cons ((reads_prettyAt level v).member name .space)
        (readsOne_prettyMembers level rest)

end

/-- **The text of a value over several lines** is read as its document. -/
theorem reads_pretty (v : Value) : Reads v.pretty v.document :=
  reads_prettyAt 0 v

/-! ### One line -/

mutual

/-- **The text of a value on one line** is read as its document. -/
theorem reads_compact : ∀ v : Value, Reads v.compact v.document
  | null => Reads.null
  | bool b => Reads.bool b
  | number n => n.reads_render
  | text s => Reads.quoted s
  | list items => Reads.list (reads_compactItems items) .nil .nil .nil
  | object members => Reads.object (readsOne_compactMembers members) .nil .nil .nil

theorem reads_compactItems :
    ∀ items : List Value, List.Forall₂ Reads (compactItems items) (documents items)
  | [] => .nil
  | v :: rest => .cons (reads_compact v) (reads_compactItems rest)

theorem readsOne_compactMembers : ∀ members : List (String × Value),
    List.Forall₂ (ReadsOne '\x7d' (readMembers none) (readMember none))
      (compactMembers members) (memberDocuments members)
  | [] => .nil
  | (name, v) :: rest =>
      .cons ((reads_compact v).member name .nil) (readsOne_compactMembers rest)

end

end Value

/-- A character is never escaped to a line feed. -/
theorem unbroken_escapedChar (c : Char) : '\n' ∉ escapedChar c := by
  unfold escapedChar
  split_ifs with hquote hslash hn hr ht hb hf hcontrol
  iterate 7 decide
  · have hdigits : ∀ k < 32, '\n' ≠ hexDigit (k / 16) ∧ '\n' ≠ hexDigit k := by decide
    obtain ⟨hhigh, hlow⟩ := hdigits _ hcontrol
    simp [hhigh, hlow]
  · exact fun h => hn (List.mem_singleton.mp h).symm

theorem unbroken_quoted (s : List Char) : '\n' ∉ quoted s := by
  simp [quoted, unbroken_escapedChar]

/-- A number has no blank at all, and what is none is written as null. -/
theorem Number.unbroken_render (n : Number) : '\n' ∉ n.render := by
  cases n with
  | natural n => exact (Decimal.unblank_natural n).unbroken
  | negative n =>
      exact List.not_mem_cons_of_ne_of_not_mem (by decide) (Decimal.unblank_natural n).unbroken
  | real x =>
      cases hx : x.isFinite with
      | false =>
          rw [render, if_neg (by simp [hx])]
          decide
      | true =>
          rw [render_real hx]
          exact (numberLayout.unblank_render_of_isFinite hx).1.unbroken

theorem unbroken_separated {texts : List (List Char)} (h : ∀ text ∈ texts, '\n' ∉ text) :
    '\n' ∉ separated [','] texts := by
  cases texts with
  | nil => exact List.not_mem_nil
  | cons text texts =>
      rw [separated_cons]
      simpa using h

namespace Value

mutual

/-- The text of a value on one line has no line feed in it. -/
theorem unbroken_compact : ∀ v : Value, '\n' ∉ v.compact
  | null => by decide
  | bool true => by decide
  | bool false => by decide
  | number n => n.unbroken_render
  | text s => unbroken_quoted s.toList
  | list items => by
      have h := unbroken_separated (unbroken_compactItems items)
      simpa [compact] using h
  | object members => by
      have h := unbroken_separated (unbroken_compactMembers members)
      simpa [compact] using h

theorem unbroken_compactItems :
    ∀ items : List Value, ∀ text ∈ compactItems items, '\n' ∉ text
  | [] => fun _ h => absurd h List.not_mem_nil
  | v :: rest => List.forall_mem_cons.mpr ⟨unbroken_compact v, unbroken_compactItems rest⟩

theorem unbroken_compactMembers :
    ∀ members : List (String × Value), ∀ text ∈ compactMembers members, '\n' ∉ text
  | [] => fun _ h => absurd h List.not_mem_nil
  | (name, v) :: rest =>
      List.forall_mem_cons.mpr
        ⟨by simp [unbroken_quoted, unbroken_compact v], unbroken_compactMembers rest⟩

end

end Value

end TrafficWatch.Json
