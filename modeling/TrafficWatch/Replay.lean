import TrafficWatch.Event.Text
import TrafficWatch.Text.Blank
import TrafficWatch.Text.Lines

/-!
# Replay

Events kept as text, one JSON object a line.  Blank lines mean nothing, and a line that is no event is
skipped; its number is kept, so that it can be told.
-/

namespace TrafficWatch

/-- What a text of events holds. -/
structure Replay where
  events : List Event
  /-- The numbers of the lines that are no events; the first line has number one. -/
  skipped : List Nat

namespace Replay

/-- What the lines from a given number on hold. -/
def ofLines : Nat → List (List Char) → Replay
  | _, [] => ⟨[], []⟩
  | n, line :: rest =>
    let later := ofLines (n + 1) rest
    let line := Text.trim line
    if line.isEmpty then later
    else
      match Event.read line with
      | .ok e => { later with events := e :: later.events }
      | .error _ => { later with skipped := n :: later.skipped }

/-- What a text holds. -/
def ofText (text : List Char) : Replay :=
  ofLines 1 (Text.lines text)

/-- What is told about a line that is skipped. -/
def skipLine (n : Nat) : String :=
  s!"Skipping replay line {n}"

end Replay

end TrafficWatch
