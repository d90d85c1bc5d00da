import TrafficWatch.Proofs.Event.Text
import TrafficWatch.Proofs.Text.Lines
import TrafficWatch.Replay

/-!
# Replay

A text of events gives back the events that were written into it, whatever stands on the other lines
(`Replay.events_ofText`).  Each line speaks for itself (`events_ofLines`): what is read of it depends
on nothing but the line without its blanks, so it remains to see what becomes of one row
(`Row.IsProper.read_trim`) and how the rows come apart again.
-/

namespace TrafficWatch.Replay

open Text (Blank Ending)

/-! ### Rows -/

/-- What is written on one line. -/
inductive Row where
  /-- An event between blanks. -/
  | event (lead : List Char) (e : Event) (trail : List Char)
  | blank (text : List Char)
  /-- Something that is no event. -/
  | stray (text : List Char)

namespace Row

/-- The line of a row, without its end. -/
def text : Row → List Char
  | event lead e trail => lead ++ e.render ++ trail
  | blank text | stray text => text

/-- The event of a row, if it has one. -/
def event? : Row → Option Event
  | event _ e _ => some e
  | blank _ | stray _ => none

/-- The row is what it is called, and stands on one line. -/
def IsProper : Row → Prop
  | event lead e trail =>
    e.IsFinite ∧ Blank lead ∧ '\n' ∉ lead ∧ Blank trail ∧ '\n' ∉ trail
  | blank text => Blank text ∧ '\n' ∉ text
  | stray text => (∀ e, Event.read (Text.trim text) ≠ .ok e) ∧ '\n' ∉ text

theorem IsProper.unbroken_text {row : Row} (h : row.IsProper) : '\n' ∉ row.text := by
  cases row with
  | event lead e trail =>
      obtain ⟨-, -, hlead, -, htrail⟩ := h
      simp [text, hlead, htrail, e.unbroken_render]
  | blank text => exact h.2
  | stray text => exact h.2

/-- A row is read as its event, if it has one. -/
theorem IsProper.read_trim {row : Row} (h : row.IsProper) :
    (Event.read (Text.trim row.text)).toOption = row.event? := by
  cases row with
  | event lead e trail =>
      obtain ⟨hfinite, hlead, -, htrail, -⟩ := h
      rw [text, e.trim_render hlead htrail, e.read_render, if_pos hfinite]
      rfl
  | blank text =>
      have htrim : Text.trim (Row.blank text).text = [] := Text.trim_blank h.1
      rw [htrim]
      rfl
  | stray text =>
      have hread : ∀ e, Event.read (Text.trim (Row.stray text).text) ≠ .ok e := h.1
      cases hresult : Event.read (Text.trim (Row.stray text).text) with
      | error fault => rfl
      | ok e => exact absurd hresult (hread e)

/-- A row that ends the text is one line, or none if nothing is written on it. -/
theorem IsProper.filterMap_lines {row : Row} (h : row.IsProper) :
    ((Text.lines row.text).map Text.trim).filterMap (fun line => (Event.read line).toOption) =
      [row].filterMap event? := by
  have hread := h.read_trim
  rw [Text.lines_unbroken h.unbroken_text, List.filterMap_cons, ← hread]
  by_cases hempty : row.text.isEmpty
  · rw [if_pos hempty, List.isEmpty_iff.mp hempty]
    rfl
  · rw [if_neg hempty, List.map_cons, List.filterMap_cons]
    rfl

end Row

/-- Rows one below the other, each with the end of its line, but for the last row. -/
def textOf (rows : List (Row × Ending)) (last : Row) : List Char :=
  rows.flatMap (fun (row, ending) => row.text ++ ending.text) ++ last.text

/-! ### Lines -/

/-- Each line is read for itself, without its blanks. -/
theorem events_ofLines (n : Nat) (lines : List (List Char)) :
    (ofLines n lines).events =
      (lines.map Text.trim).filterMap fun line => (Event.read line).toOption := by
  induction lines generalizing n with
  | nil => rfl
  | cons line lines ih =>
      rw [List.map_cons, List.filterMap_cons, ← ih (n + 1), ofLines]
      by_cases hempty : (Text.trim line).isEmpty
      · rw [if_pos hempty, List.isEmpty_iff.mp hempty]
        rfl
      · rw [if_neg hempty]
        cases Event.read (Text.trim line) with
        | ok e => rfl
        | error fault => rfl

/-- **A text of events gives back its events**, all of them and in their order: whatever blanks stand
around them, however the lines end, and whatever else is written on lines of their own. -/
theorem events_ofText {rows : List (Row × Ending)} {last : Row}
    (hrows : ∀ row ∈ rows, row.1.IsProper) (hlast : last.IsProper) :
    (ofText (textOf rows last)).events = (rows.map Prod.fst ++ [last]).filterMap Row.event? := by
  rw [ofText, events_ofLines]
  induction rows with
  | nil => exact hlast.filterMap_lines
  | cons row rows ih =>
      obtain ⟨row, ending⟩ := row
      obtain ⟨hrow, hrows⟩ := List.forall_mem_cons.mp hrows
      have htext : textOf ((row, ending) :: rows) last =
          row.text ++ ending.text ++ textOf rows last := by
        simp [textOf]
      rw [htext, Text.map_trim_lines_ended hrow.unbroken_text, List.filterMap_cons, ih hrows,
        hrow.read_trim]
      rfl

/-- Two events among lines that hold nothing, no JSON, or another object; one event has no client, and
the other has texts full of what has to be escaped. -/
theorem events_ofText_strays :
    let quiet : Event := ⟨none, 0.1, 200, false, false, "GET", "/", -0.0⟩
    let loud : Event :=
      ⟨some "a\"b\\\n\r\u0001é", 15e20, 65535, true, true, "", "\u2028", 4.25⟩
    let rows : List (Row × Ending) := [
      (.stray "GET / 200".toList, .lineFeed),
      (.event [] quiet ['\t'], .returnAndLineFeed),
      (.blank ['\u3000'], .lineFeed),
      (.stray "\x7b\x7d".toList, .returnAndLineFeed)]
    let last : Row := .event ['\u00a0'] loud []
    (∀ row ∈ rows, row.1.IsProper) ∧ last.IsProper ∧
      (ofText (textOf rows last)).events = [quiet, loud] := by
  intro quiet loud rows last
  have hword : Event.read (Text.trim "GET / 200".toList) = .error .malformed := rfl
  have hobject : Event.read (Text.trim "\x7b\x7d".toList) = .error .mismatched := rfl
  have hrows : ∀ row ∈ rows, row.1.IsProper := by
    simp only [rows, List.forall_mem_cons]
    refine ⟨⟨?_, by decide⟩, ⟨by decide, by decide, by decide, by decide, by decide⟩,
      ⟨by decide, by decide⟩, ⟨?_, by decide⟩, nofun⟩
    · rw [hword]
      exact nofun
    · rw [hobject]
      exact nofun
  have hlast : last.IsProper := ⟨by decide, by decide, by decide, by decide, by decide⟩
  exact ⟨hrows, hlast, events_ofText hrows hlast⟩

end TrafficWatch.Replay
