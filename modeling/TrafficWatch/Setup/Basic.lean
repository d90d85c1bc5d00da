import TrafficWatch.Failure
import TrafficWatch.Log.Settings
import TrafficWatch.Settings.Tree

/-!
# Setup

The configuration of the gateway, which is made of layers.  Each layer is laid over the ones before
it, and the first lies over the usual values; the settings are read from the result, and they have to
be sound (`Setup.ofLayers`).
-/

namespace TrafficWatch

open Setup (Layer Node Reading Slot)

/-- The configuration of the gateway. -/
structure Setup where
  log : LogSettings := {}
  detection : Settings

namespace Setup

/-- The usual configuration on a machine with so many processors. -/
def usual (processors : Nat) : Setup where
  detection := .usual processors

/-- The configuration as a table. -/
def toNode (c : Setup) : Node :=
  .table [("log", c.log.toNode), ("detection", c.detection.toNode)]

/-- The fields of the configuration in their order. -/
def fields (processors : Nat) (r : Reading) : List (Slot Setup) := [
  ("log", fun n c => do return { c with log := ← LogSettings.ofNode r n }),
  ("detection", fun n c => do return { c with detection := ← Settings.ofNode processors r n })]

/-- The configuration written by a node. -/
def ofNode (processors : Nat) (r : Reading) (n : Node) : Option Setup :=
  r.record (fields processors r) (.usual processors) n

/-- The usual values under all layers, each layer over the ones before it. -/
def merged (processors : Nat) (layers : List Layer) : Node :=
  layers.foldl (fun lower l => l.over lower) (usual processors).toNode

/-- The configuration that layers make, if it can be read and its settings can be run. -/
def ofLayers (processors : Nat) (layers : List Layer) : Except Failure Setup :=
  match ofNode processors .free (merged processors layers) with
  | none => .error .source
  | some c =>
    match c.detection.flaw? with
    | some flaw => .error (.settings flaw)
    | none => .ok c

end Setup

end TrafficWatch
