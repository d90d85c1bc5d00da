import TrafficWatch.Setup.Reading

/-!
# Log — Settings

What an operator can set about the log, as a tree of named values, and the log that follows from it
(`LogPlan`), in which a command line may still change a few things.
-/

namespace TrafficWatch

open Setup (Node Reading Slot)

/-- When a new file is begun. -/
inductive Rotation where
  | daily
  | hourly
  | never
deriving Repr, DecidableEq

namespace Rotation

/-- All rotations. -/
def all : List Rotation := [daily, hourly, never]

/-- The name of a rotation. -/
def name : Rotation → String
  | daily => "daily"
  | hourly => "hourly"
  | never => "never"

/-- The rotation of the given name. -/
def ofName? (name : String) : Option Rotation :=
  all.find? (·.name == name)

end Rotation

/-- What an operator can set about the log. -/
structure LogSettings where
  level : String := "info"
  directory : String := "logs"
  rotation : Rotation := .daily
  toConsole : Bool := true
  toFile : Bool := false
  asJson : Bool := false
deriving Repr, DecidableEq

namespace LogSettings

/-- The settings as a table. -/
def toNode (s : LogSettings) : Node :=
  .table [
    ("level", .text s.level),
    ("dir", .text s.directory),
    ("rotation", .text s.rotation.name),
    ("console", .truth s.toConsole),
    ("file", .truth s.toFile),
    ("json", .truth s.asJson)]

/-- The fields of the settings in their order. -/
def fields (r : Reading) : List (Slot LogSettings) := [
  ("level", fun n s => do return { s with level := ← r.text n }),
  ("dir", fun n s => do return { s with directory := ← r.text n }),
  ("rotation", fun n s => do return { s with rotation := ← (r.word n).bind Rotation.ofName? }),
  ("console", fun n s => do return { s with toConsole := ← r.truth n }),
  ("file", fun n s => do return { s with toFile := ← r.truth n }),
  ("json", fun n s => do return { s with asJson := ← r.truth n })]

/-- The settings written by a node. -/
def ofNode (r : Reading) (n : Node) : Option LogSettings :=
  r.record (fields r) {} n

end LogSettings

/-- The log that is kept. -/
structure LogPlan where
  level : String
  directory : String
  rotation : Rotation
  toConsole : Bool
  toFile : Bool
  asJson : Bool
deriving Repr, DecidableEq

/-- What a command line may change about the log. -/
structure LogChanges where
  level : Option String := none
  directory : Option String := none
  toConsole : Option Bool := none
  toFile : Option Bool := none

namespace LogPlan

/-- The log that the settings ask for. -/
def ofSettings (s : LogSettings) : LogPlan :=
  ⟨s.level, s.directory, s.rotation, s.toConsole, s.toFile, s.asJson⟩

/-- The log with some things changed. -/
def change (p : LogPlan) (c : LogChanges) : LogPlan :=
  { p with
    level := c.level.getD p.level
    directory := c.directory.getD p.directory
    toConsole := c.toConsole.getD p.toConsole
    toFile := c.toFile.getD p.toFile }

end LogPlan

end TrafficWatch
