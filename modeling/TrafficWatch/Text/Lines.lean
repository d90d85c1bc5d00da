/-!
# Text — Lines

The lines of a text.  A line ends with a line feed, before which a carriage return belongs to the end
of the line; the last line needs no end, and no empty line follows the end of the last.
-/

namespace TrafficWatch.Text

/-- The pieces of a text between line feeds. -/
def lineFeedPieces : List Char → List (List Char)
  | [] => [[]]
  | c :: rest =>
    if c = '\n' then [] :: lineFeedPieces rest
    else
      match lineFeedPieces rest with
      | [] => [[c]]
      | piece :: more => (c :: piece) :: more

/-- A line without the carriage return at its end. -/
def withoutReturn (line : List Char) : List Char :=
  if line.getLast? = some '\r' then line.dropLast else line

/-- The lines of a text: all pieces but the last end with a line feed. -/
def linesOf : List (List Char) → List (List Char)
  | [] => []
  | [last] => if last.isEmpty then [] else [last]
  | piece :: more => withoutReturn piece :: linesOf more

/-- The lines of a text. -/
def lines (s : List Char) : List (List Char) :=
  linesOf (lineFeedPieces s)

end TrafficWatch.Text
