/-!
# Tally

Counts by kind.  A kind is on the tally once it has been counted or asked for; until then it has no
entry, and its count is zero either way.
-/

namespace TrafficWatch

/-- Counts by kind, each kind once. -/
structure Tally (κ : Type) where
  entries : List (κ × Nat)
deriving Repr

namespace Tally

variable {κ : Type} [DecidableEq κ]

/-- Nothing has been counted. -/
def empty : Tally κ := ⟨[]⟩

/-- The count of a kind. -/
def count (t : Tally κ) (kind : κ) : Nat :=
  (t.entries.lookup kind).getD 0

/-- Whether a kind has an entry. -/
def contains (t : Tally κ) (kind : κ) : Bool :=
  (t.entries.lookup kind).isSome

/-- The entries with `n` more of a kind, which gets an entry if it has none. -/
def addEntry (kind : κ) (n : Nat) : List (κ × Nat) → List (κ × Nat)
  | [] => [(kind, n)]
  | (k, c) :: rest => if k = kind then (k, c + n) :: rest else (k, c) :: addEntry kind n rest

/-- The tally with `n` more of a kind. -/
def add (t : Tally κ) (kind : κ) (n : Nat) : Tally κ :=
  ⟨addEntry kind n t.entries⟩

/-- The tally with one more of a kind. -/
def increment (t : Tally κ) (kind : κ) : Tally κ :=
  t.add kind 1

/-- The tally with an entry for a kind. -/
def touch (t : Tally κ) (kind : κ) : Tally κ :=
  t.add kind 0

end Tally

end TrafficWatch
