import TrafficWatch.Setup.Node

/-!
# Toml — Draft

The tables of a document while it is being read.  A table can be stated by a header of its own, implied
by the header of a table below it, or made by the points in a key.  A header may state an implied table
once; a key with points may lead through all but stated tables, and no header may state the table to
which it has added.  What a draft refuses is a table or a key that is given twice.
-/

namespace TrafficWatch.Toml

open Setup (Node)

/-- How a table has come into being. -/
inductive TableKind where
  /-- A table below it has a header. -/
  | implied
  /-- A key with points has made it or has added to it. -/
  | dotted
  /-- It has a header of its own. -/
  | stated
deriving Repr, DecidableEq

/-- What a name stands for while the document is being read. -/
inductive Draft where
  /-- A value, which is closed. -/
  | value (n : Node)
  | table (kind : TableKind) (members : List (String × Draft))
  /-- Tables in a row, of which the last one is open. -/
  | tables (closed : List (List (String × Draft))) (last : List (String × Draft))

/-- Names with what they stand for, each name once. -/
abbrev Members := List (String × Draft)

/-- The members with a name replaced, or added when it is new. -/
def Members.put (name : String) (d : Draft) : Members → Members
  | [] => [(name, d)]
  | (k, old) :: rest => if k = name then (k, d) :: rest else (k, old) :: Members.put name d rest

/-- The members with a new name; a name that is there already is refused. -/
def Members.add (name : String) (n : Node) (ms : Members) : Option Members :=
  if (ms.lookup name).isSome then none else some (ms.put name (.value n))

/-- A change at the end of the way that a header gives.  Missing tables are implied, and the way leads
into the last of tables in a row. -/
def Members.atHeader (change : Members → Option Members) : List String → Members → Option Members
  | [], ms => change ms
  | name :: rest, ms =>
    match ms.lookup name with
    | none => do
      let inner ← Members.atHeader change rest []
      return ms.put name (.table .implied inner)
    | some (.value _) => none
    | some (.table kind inner) => do
      let inner ← Members.atHeader change rest inner
      return ms.put name (.table kind inner)
    | some (.tables closed last) => do
      let last ← Members.atHeader change rest last
      return ms.put name (.tables closed last)

/-- A table is stated. -/
def Members.state (name : String) (ms : Members) : Option Members :=
  match ms.lookup name with
  | none => some (ms.put name (.table .stated []))
  | some (.table .implied inner) => some (ms.put name (.table .stated inner))
  | _ => none

/-- One more of tables in a row is stated. -/
def Members.stateNext (name : String) (ms : Members) : Option Members :=
  match ms.lookup name with
  | none => some (ms.put name (.tables [] []))
  | some (.tables closed last) => some (ms.put name (.tables (closed ++ [last]) []))
  | _ => none

/-- A value is given to a key with points: the tables on the way are made, or have been without a
header of their own.  The way may lead through the last of tables in a row, but not end there. -/
def Members.assign (n : Node) : List String → Members → Option Members
  | [], _ => none
  | [name], ms => ms.add name n
  | name :: next :: rest, ms =>
    match ms.lookup name with
    | none => do
      let inner ← Members.assign n (next :: rest) []
      return ms.put name (.table .dotted inner)
    | some (.value _) => none
    | some (.table kind inner) =>
      if kind = .stated then none
      else do
        let inner ← Members.assign n (next :: rest) inner
        return ms.put name (.table (if rest.isEmpty then .dotted else kind) inner)
    | some (.tables closed last) =>
      if rest.isEmpty then none
      else do
        let last ← Members.assign n (next :: rest) last
        return ms.put name (.tables closed last)

mutual

/-- What has been read. -/
def Draft.node : Draft → Node
  | .value n => n
  | .table _ ms => .table (nodesOf ms)
  | .tables closed last => .list (nodesOfTables closed ++ [.table (nodesOf last)])

/-- The nodes of members. -/
def nodesOf : List (String × Draft) → List (String × Node)
  | [] => []
  | (name, d) :: rest => (name, d.node) :: nodesOf rest

/-- The nodes of tables in a row. -/
def nodesOfTables : List (List (String × Draft)) → List Node
  | [] => []
  | ms :: rest => .table (nodesOf ms) :: nodesOfTables rest

end

end TrafficWatch.Toml
