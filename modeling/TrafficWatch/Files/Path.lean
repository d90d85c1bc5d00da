/-!
# Files — Path

Paths as they are written.  A path is made of the names between its slashes, in which two points lead
one directory up and a single point leads nowhere.  It leads to a `Place`, but only through directories
that are there (`FileTree.locate`).
-/

namespace TrafficWatch

/-- Where something stands: the names on the way down from the root. -/
abbrev Place := List String

namespace Place

/-- The place to which a name leads. -/
def enter (here : Place) (name : String) : Place :=
  if name = ".." then List.dropLast here else here ++ [name]

/-- A place written with slashes. -/
def render (here : Place) : String :=
  "/".intercalate here

end Place

/-- A path of names. -/
structure Path where
  names : List String
  /-- Whether a path may be written so. -/
  isUsable : Bool
deriving Repr, DecidableEq

namespace Path

/-- The greatest number of bytes of a name. -/
def maxNameSize : Nat := 255

/-- The greatest number of bytes of a path. -/
def maxSize : Nat := 4095

/-- The path that a text stands for.  It must not be too long, and it must hold no null character. -/
def parse (text : String) : Path where
  names := ((text.toList.splitOn '/').map String.ofList).filter fun name => name ≠ "" && name ≠ "."
  isUsable := !text.toList.contains '\x00' && text.utf8ByteSize ≤ maxSize

/-- The place to which a path leads when all that it leads through is there. -/
def place (p : Path) : Place :=
  p.names.foldl Place.enter []

/-- The directory that holds what stands at a path. -/
def parent (p : Path) : Path :=
  { p with names := p.names.dropLast }

/-- The paths to all that a path leads through, from the outermost one to the path itself. -/
def waypoints (p : Path) : List Path :=
  (List.range p.names.length).map fun n => { p with names := p.names.take (n + 1) }

/-- The path of a name in the directory at a path. -/
def child (p : Path) (name : String) : Path :=
  { p with names := p.names ++ [name] }

/-- The path beside it with more letters at the end of its name. -/
def withEnding (p : Path) (ending : String) : Path :=
  match p.names.getLast? with
  | none | some ".." => p.child ending
  | some name => p.parent.child (name ++ ending)

/-- The texts of a directory and of a path below it as one; a path from the root is below no other. -/
def join (directory path : String) : String :=
  if path.startsWith "/" then path
  else if directory.isEmpty || directory.endsWith "/" then directory ++ path
  else directory ++ "/" ++ path

end Path

end TrafficWatch
