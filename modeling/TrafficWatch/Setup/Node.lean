import TrafficWatch.Json.Value
import TrafficWatch.Setup.Way

/-!
# Setup — Node

What a source of the configuration holds: a tree whose leaves are truth values, numbers and texts.
`Node.onto` lays one node on another: tables are merged name by name, and everything else takes the
place of what was there.  A `Layer` is a node that is laid at the end of a way, and what is missing on
the way is made (`Layer.over`).
-/

namespace TrafficWatch.Setup

/-- A value in a source of the configuration. -/
inductive Node where
  /-- There is no value. -/
  | absent
  | truth (b : Bool)
  | whole (n : Int)
  | real (x : Float)
  | text (s : String)
  | list (items : List Node)
  /-- Names with their values, each name once. -/
  | table (members : List (String × Node))

/-- The members of a table with the value of a name replaced, or added when the name is new. -/
def putMember (name : String) (n : Node) : List (String × Node) → List (String × Node)
  | [] => [(name, n)]
  | (k, old) :: rest => if k = name then (k, n) :: rest else (k, old) :: putMember name n rest

namespace Node

/-- The members of a table; anything else has none. -/
def members : Node → List (String × Node)
  | table ms => ms
  | _ => []

/-- The value of a name in a table. -/
def member? (name : String) (n : Node) : Option Node :=
  n.members.lookup name

/-- The items of a list; anything else has none. -/
def items : Node → List Node
  | list ns => ns
  | _ => []

/-- What stands at the end of a way. -/
def follow? : Way → Node → Option Node
  | [], n => some n
  | .member name :: rest, n => (n.member? name).bind (follow? rest)
  | .place k :: rest, n =>
    let k := if 0 ≤ k then k else n.items.length + k
    if k < 0 then none else n.items[k.toNat]?.bind (follow? rest)

mutual

/-- A node laid onto another one. -/
def onto : Node → Node → Node
  | table ms, lower => table (ontoMembers ms lower.members)
  | upper, _ => upper

/-- Members laid onto the members of a table. -/
def ontoMembers : List (String × Node) → List (String × Node) → List (String × Node)
  | [], lower => lower
  | (name, n) :: rest, lower =>
    ontoMembers rest (putMember name (n.onto ((lower.lookup name).getD absent)) lower)

end

/-- Items among which there is one at a place, and where it is counted from the start.  What has to be
added is absent: at the end for a place beyond it, and at the start for one that lies before it. -/
def withPlace (place : Int) (ns : List Node) : List Node × Nat :=
  if 0 ≤ place then (ns ++ List.replicate (place.toNat + 1 - ns.length) absent, place.toNat)
  else
    let n := ns.length + place
    if 0 ≤ n then (ns, n.toNat) else (List.replicate n.natAbs absent ++ ns, 0)

/-- A node laid onto what stands at the end of a way.  What is not a table, or not a list, where the
way goes through one gives way to it. -/
def layAt (upper : Node) : Way → Node → Node
  | [], lower => upper.onto lower
  | .member name :: rest, lower =>
    table (putMember name (layAt upper rest ((lower.member? name).getD absent)) lower.members)
  | .place n :: rest, lower =>
    let (ns, n) := withPlace n lower.items
    list (ns.set n (layAt upper rest (ns.getD n absent)))

mutual

/-- A JSON value as a node; of several members of one name the last one counts. -/
def ofJson : Json.Value → Node
  | .null => absent
  | .bool b => truth b
  | .number (.natural n) => whole n
  | .number (.negative n) => whole (-n)
  | .number (.real x) => real x
  | .text s => text s
  | .list ns => list (ofJsonItems ns)
  | .object ms => table (ofJsonMembers ms [])

/-- The nodes of the items of a list. -/
def ofJsonItems : List Json.Value → List Node
  | [] => []
  | v :: rest => ofJson v :: ofJsonItems rest

/-- The nodes of the members of an object, added to those before them. -/
def ofJsonMembers : List (String × Json.Value) → List (String × Node) → List (String × Node)
  | [], done => done
  | (name, v) :: rest, done => ofJsonMembers rest (putMember name (ofJson v) done)

end

end Node

/-- A node that is laid at the end of a way. -/
structure Layer where
  way : Way
  node : Node

/-- A layer over what is there. -/
def Layer.over (l : Layer) (lower : Node) : Node :=
  l.node.layAt l.way lower

/-- The layers of a table: one for each of its members, with the name as a way. -/
def layersOf (members : List (String × Node)) : List Layer :=
  members.map fun (name, n) => ⟨wayOf name.toList, n⟩

end TrafficWatch.Setup
