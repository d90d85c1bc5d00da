import TrafficWatch.Files.Path

/-!
# Files — Tree

Files and directories, and the primitive steps that change them.  A `FileTree` maps places to files
with their bytes or to directories, and a path leads to a place through directories that are there
(`FileTree.locate`).  Each `FileStep` either happens as a whole or fails and changes nothing;
`FileTree.performAll` goes through a list of steps and stops at the first that fails.
-/

namespace TrafficWatch

/-- What stands at a place. -/
inductive FileEntry where
  | file (bytes : ByteArray)
  | directory

/-- Files and directories by their places.  The root is a directory. -/
structure FileTree where
  entries : List (Place × FileEntry)

/-- Why a path leads nowhere. -/
inductive PathFault where
  /-- There is nothing where a directory is needed. -/
  | missing
  /-- Something else stands where a directory is needed, or no path can be written so. -/
  | blocked
deriving Repr, DecidableEq

/-- A primitive change. -/
inductive FileStep where
  /-- A file goes; there need not be one. -/
  | remove (path : Path)
  /-- A directory is made, unless there is one. -/
  | makeDirectory (path : Path)
  /-- A file is written, whether or not there was one. -/
  | write (path : Path) (bytes : ByteArray)
  /-- A file takes the place of another one. -/
  | rename (source target : Path)

/-- The steps that make a directory and all those on the way to it. -/
def FileStep.makeWay (p : Path) : List FileStep :=
  p.waypoints.map .makeDirectory

namespace FileTree

/-- Nothing but the root. -/
def empty : FileTree := ⟨[]⟩

/-- What stands at a place. -/
def entry? (t : FileTree) (here : Place) : Option FileEntry :=
  if here.isEmpty then some .directory else t.entries.lookup here

/-- What keeps names from leading anywhere from a place.  Each name but the last has to lead to a
directory, and none may be too long. -/
def faultAlong? (t : FileTree) : Place → List String → Option PathFault
  | _, [] => none
  | here, name :: rest =>
    match t.entry? here with
    | some .directory =>
      if name.utf8ByteSize ≤ Path.maxNameSize then t.faultAlong? (here.enter name) rest
      else some .blocked
    | some (.file _) => some .blocked
    | none => some .missing

/-- What keeps a path from leading anywhere. -/
def fault? (t : FileTree) (p : Path) : Option PathFault :=
  if p.isUsable then t.faultAlong? [] p.names else some .blocked

/-- The place to which a path leads. -/
def locate (t : FileTree) (p : Path) : Except PathFault Place :=
  match t.fault? p with
  | none => .ok p.place
  | some fault => .error fault

/-- What stands at a path. -/
def get? (t : FileTree) (p : Path) : Option FileEntry :=
  match t.locate p with
  | .ok here => t.entry? here
  | .error _ => none

/-- Whether anything stands at a path. -/
def exists? (t : FileTree) (p : Path) : Bool :=
  (t.get? p).isSome

/-- The bytes of a file. -/
def read? (t : FileTree) (p : Path) : Option ByteArray :=
  match t.get? p with
  | some (.file bytes) => some bytes
  | _ => none

/-- The tree without what stands at a place. -/
def erase (t : FileTree) (here : Place) : FileTree :=
  ⟨t.entries.filter fun e => e.1 != here⟩

/-- The tree with something at a place. -/
def put (t : FileTree) (here : Place) (e : FileEntry) : FileTree :=
  ⟨(here, e) :: (t.erase here).entries⟩

/-- The tree with a file at a place, unless a directory is there. -/
def putFile? (t : FileTree) (here : Place) (bytes : ByteArray) : Option FileTree :=
  match t.entry? here with
  | some .directory => none
  | _ => some (t.put here (.file bytes))

/-- The tree after a step, unless the step fails. -/
def perform? (t : FileTree) : FileStep → Option FileTree
  | .remove p =>
    match t.locate p with
    | .error .missing => some t
    | .error .blocked => none
    | .ok here =>
      match t.entry? here with
      | none => some t
      | some (.file _) => some (t.erase here)
      | some .directory => none
  | .makeDirectory p =>
    match t.locate p with
    | .error _ => none
    | .ok here =>
      match t.entry? here with
      | none => some (t.put here .directory)
      | some .directory => some t
      | some (.file _) => none
  | .write p bytes =>
    match t.locate p with
    | .ok here => t.putFile? here bytes
    | .error _ => none
  | .rename source target =>
    match t.locate source, t.locate target with
    | .ok here, .ok there =>
      match t.entry? here with
      | some (.file bytes) => (t.erase here).putFile? there bytes
      | _ => none
    | _, _ => none

/-- The tree after as many of the steps as succeed, and whether all did. -/
def performAll (t : FileTree) : List FileStep → Bool × FileTree
  | [] => (true, t)
  | step :: rest =>
    match t.perform? step with
    | some t => t.performAll rest
    | none => (false, t)

/-- The tree with something at a path, and with directories on the way to it.  Where a file is in the
way nothing is put there. -/
def withEntry (t : FileTree) (p : Path) (e : FileEntry) : FileTree :=
  let (_, t) := t.performAll (FileStep.makeWay p.parent)
  match t.locate p with
  | .ok here => t.put here e
  | .error _ => t

/-- All places below a directory, relative to it. -/
def below (t : FileTree) (directory : Place) : List Place :=
  t.entries.filterMap fun (here, _) =>
    if directory.isPrefixOf here && directory.length < here.length then
      some (here.drop directory.length)
    else none

end FileTree

end TrafficWatch
