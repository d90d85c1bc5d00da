import TrafficWatch.Setup.Basic
import TrafficWatch.Setup.Environment
import TrafficWatch.Json.Reader
import TrafficWatch.Toml.Reader

/-!
# Setup — Sources

Where the layers come from: files in one of two formats, and the environment.  Either one file is
named, and then it has to be there, or files are looked for in the usual places, and each of them may
be missing.  A file that is there has to be readable.  The environment lies over all files.

Two things are settled here that the gateway leaves to its configuration library.  Of the formats that
the library knows only TOML and JSON are read: a file that is named has to be in one of them, and at the
usual places no other is looked for.  And names at the top of a file that lead to the same place, such
as `log.level` beside a table `log`, are laid over each other in the order of the file, where the
library goes through a hash map, whose order is not fixed.
-/

namespace TrafficWatch.Setup

/-- The format of a file. -/
inductive Format where
  | toml
  | json
deriving Repr, DecidableEq

namespace Format

/-- All formats, in the order in which files are looked for. -/
def all : List Format := [toml, json]

/-- The ending of the names of files in a format. -/
def ending : Format → String
  | toml => ".toml"
  | json => ".json"

/-- The format of the file of the given name. -/
def ofFileName? (name : String) : Option Format :=
  all.find? fun f => f.ending.toList.isSuffixOf name.toList

/-- The greatest nesting of a text that is read as JSON. -/
def jsonNesting : Nat := 127

/-- The table that a text describes. -/
def members? : Format → List Char → Option (List (String × Node))
  | toml, s => Toml.ofText? s
  | json, s =>
    match Json.Value.ofText? s with
    | some v =>
      match Node.ofJson v with
      | .table ms => if v.nesting ≤ jsonNesting then some ms else none
      | _ => none
    | none => none

/-- The layers of a text. -/
def layers (f : Format) (text : String) : Except Failure (List Layer) :=
  match f.members? (Toml.withoutMark text.toList) with
  | some ms => .ok (layersOf ms)
  | none => .error .source

end Format

/-- The layers of a file that is named. -/
def namedLayers (name : String) (content : Option String) : Except Failure (List Layer) :=
  match Format.ofFileName? name, content with
  | some f, some text => f.layers text
  | _, _ => .error .source

/-- The places in which files are looked for, without the ending of their names. -/
def usualPlaces : List String := ["aegis", "config/aegis"]

/-- The layers of the file at a usual place: the first format of which there is one.  What has no
ending hides the files that have one, and nothing is read from it. -/
def layersAt (content : String → Option String) (place : String) : Except Failure (List Layer) :=
  if (content place).isSome then .ok []
  else
    match Format.all.findSome? fun f => (content (place ++ f.ending)).map (f, ·) with
    | some (f, text) => f.layers text
    | none => .ok []

/-- The layers of the files in the usual places. -/
def usualLayers (content : String → Option String) : Except Failure (List Layer) :=
  (usualPlaces.mapM (layersAt content)).map List.flatten

/-- The configuration of the files, if they can be read, under the environment, on a machine with so
many processors. -/
def load (processors : Nat) (files : Except Failure (List Layer))
    (environment : List (String × String)) : Except Failure Setup := do
  let layers ← files
  ofLayers processors (layers ++ environmentLayers environment)

end TrafficWatch.Setup
