import TrafficWatch.Proofs.Text.Blank
import TrafficWatch.Text.Lines

/-!
# Text — Lines

How a text falls into lines.  A piece without a line feed that is followed by one is the first line,
but for a carriage return at its end (`lines_append`), and this return is a blank: those who cut the
blanks off a line need not know how it ended (`map_trim_lines_ended`).
-/

namespace TrafficWatch.Text

theorem lineFeedPieces_ne_nil (s : List Char) : lineFeedPieces s ≠ [] := by
  cases s with
  | nil => exact List.cons_ne_nil _ _
  | cons c s =>
      unfold lineFeedPieces
      split
      · exact List.cons_ne_nil _ _
      · split
        · exact List.cons_ne_nil _ _
        · exact List.cons_ne_nil _ _

theorem lineFeedPieces_unbroken {piece : List Char} (h : '\n' ∉ piece) :
    lineFeedPieces piece = [piece] := by
  induction piece with
  | nil => rfl
  | cons c piece ih =>
      obtain ⟨hc, hpiece⟩ := List.ne_and_not_mem_of_not_mem_cons h
      rw [lineFeedPieces, if_neg hc.symm, ih hpiece]

theorem lineFeedPieces_append {piece : List Char} (h : '\n' ∉ piece) (rest : List Char) :
    lineFeedPieces (piece ++ '\n' :: rest) = piece :: lineFeedPieces rest := by
  induction piece with
  | nil => exact if_pos rfl
  | cons c piece ih =>
      obtain ⟨hc, hpiece⟩ := List.ne_and_not_mem_of_not_mem_cons h
      rw [List.cons_append, lineFeedPieces, if_neg hc.symm, ih hpiece]

theorem lines_unbroken {line : List Char} (h : '\n' ∉ line) :
    lines line = if line.isEmpty then [] else [line] := by
  rw [lines, lineFeedPieces_unbroken h, linesOf]

/-- The first line of a text goes up to the first line feed. -/
theorem lines_append {piece : List Char} (h : '\n' ∉ piece) (rest : List Char) :
    lines (piece ++ '\n' :: rest) = withoutReturn piece :: lines rest := by
  rw [lines, lineFeedPieces_append h, linesOf, lines]
  exact lineFeedPieces_ne_nil rest

/-! ### Ends of lines -/

/-- How a line ends. -/
inductive Ending where
  | lineFeed
  | returnAndLineFeed

namespace Ending

/-- What stands before the line feed. -/
def lead : Ending → List Char
  | lineFeed => []
  | returnAndLineFeed => ['\r']

/-- The characters that end a line. -/
def text (ending : Ending) : List Char :=
  ending.lead ++ ['\n']

theorem blank_lead (ending : Ending) : Blank ending.lead := by
  cases ending <;> decide

theorem unbroken_lead (ending : Ending) : '\n' ∉ ending.lead := by
  cases ending <;> decide

end Ending

/-- A return at the end of a line is one of its blanks. -/
theorem trim_withoutReturn (line : List Char) : trim (withoutReturn line) = trim line := by
  unfold withoutReturn
  split
  · rename_i hreturn
    obtain ⟨front, rfl⟩ := List.getLast?_eq_some_iff.mp hreturn
    rw [List.dropLast_concat, trim_append (by decide)]
  · rfl

/-- Without its blanks, a line is the same however it ends. -/
theorem map_trim_lines_ended {line : List Char} (h : '\n' ∉ line) (ending : Ending)
    (rest : List Char) :
    (lines (line ++ ending.text ++ rest)).map trim = trim line :: (lines rest).map trim := by
  have hpiece : '\n' ∉ line ++ ending.lead :=
    fun hc => (List.mem_append.mp hc).elim h ending.unbroken_lead
  have htext : line ++ ending.text ++ rest = line ++ ending.lead ++ '\n' :: rest := by
    simp [Ending.text]
  rw [htext, lines_append hpiece, List.map_cons, trim_withoutReturn, trim_append ending.blank_lead]

end TrafficWatch.Text
