import TrafficWatch.Files.Tree
import TrafficWatch.Failure
import TrafficWatch.Pca.Text
import TrafficWatch.Learner.Calibration
import TrafficWatch.Text.Blank
import TrafficWatch.Text.Bytes

/-!
# Files — Model store

A model that outlives the process, in three files: the model, the threshold with the kind of score it
is for, and a marker that stands while there is no model.  `ModelPaths.load` reads them and
`Calibration.steps` lists the primitive steps that write them.  The threshold file names its kind, so however
far a save has come, a threshold is never taken for one of the other kind; and a save of a model
removes the old threshold before it touches the model, so that no threshold ever stands beside a model
it was not made for.
-/

namespace TrafficWatch

/-- What stands at the path of a file. -/
inductive Stored where
  | missing
  /-- Something that cannot be read as a file. -/
  | unreadable
  | bytes (content : ByteArray)

/-- Whether anything stands there. -/
def Stored.isPresent : Stored → Bool
  | missing => false
  | _ => true

/-- What stands at a path of a tree. -/
def FileTree.stored (t : FileTree) (p : Path) : Stored :=
  match t.get? p with
  | none => .missing
  | some .directory => .unreadable
  | some (.file bytes) => .bytes bytes

/-- What stands at the three paths. -/
structure StoredFiles where
  model : Stored
  threshold : Stored
  marker : Stored

/-- What stands at the three paths of a tree. -/
def ModelPaths.look (paths : ModelPaths) (t : FileTree) : StoredFiles where
  model := t.stored (.parse paths.model)
  threshold := t.stored (.parse paths.threshold)
  marker := t.stored (.parse paths.marker)

/-- Thresholds are written with all their digits around the point. -/
def thresholdLayout : Decimal.Layout := .plain

/-- What a threshold is for. -/
inductive ScoreKind where
  | model
  | fallback
deriving Repr, DecidableEq

/-- The word for a kind of score. -/
def ScoreKind.word : ScoreKind → String
  | model => "model"
  | fallback => "fallback"

/-- The kind of score of the given word. -/
def ScoreKind.ofWord? (word : List Char) : Option ScoreKind :=
  [model, fallback].find? fun kind => kind.word.toList == word

/-- The text of a threshold. -/
def thresholdText (kind : ScoreKind) (threshold : Float) : String :=
  kind.word ++ " " ++ thresholdLayout.text threshold ++ "\n"

/-- The text of the marker. -/
def markerText : String := "fallback\n"

/-- A finite threshold written by `number`, which is all or the end of `text`. -/
def readNumber (text number : List Char) : Except StoreFault Float :=
  match Decimal.parseFloat? number with
  | none => .error (.unparsable text)
  | some x => if x.isFinite then .ok x else .error (.notFinite x)

/-- The kind, if it is given, and the threshold that a text gives. -/
def readThreshold (text : List Char) : Except StoreFault (Option ScoreKind × Float) :=
  let text := Text.trim text
  match Text.splitBlank text with
  | none => (readNumber text text).map (none, ·)
  | some (word, rest) =>
    match ScoreKind.ofWord? word with
    | none => .error (.unknownKind word)
    | some kind => (readNumber text (Text.trim rest)).map (some kind, ·)

/-- The kind and the threshold in a file. -/
def Stored.threshold : Stored → Except Failure (Option ScoreKind × Float)
  | bytes content =>
    match Text.ofBytes? content with
    | some text => (readThreshold text.toList).mapError .store
    | none => .error .unreadable
  | _ => .error .unreadable

/-- The model in a file, if it can be used. -/
def Stored.model : Stored → Except Failure PcaModel
  | bytes content =>
    match PcaModel.read (.ofBytes content) with
    | .ok m => (PcaModel.checked m).mapError .model
    | .error fault => .error (.json fault)
  | _ => .error .unreadable

/-- What the files hold.  Without a marker and a model they hold nothing, whatever the threshold; a
threshold that does not name its kind is for the fallback exactly when the marker stands. -/
def ModelPaths.load (paths : ModelPaths) (files : StoredFiles) : Except Failure (Option Calibration) :=
  if !files.marker.isPresent && !files.model.isPresent then .ok none
  else if !files.threshold.isPresent then .error (.store (.thresholdMissing paths.threshold))
  else do
    let (kind?, threshold) ← files.threshold.threshold
    match kind?.getD (if files.marker.isPresent then .fallback else .model) with
    | .fallback => return some (.byRate threshold)
    | .model =>
      if !files.model.isPresent then .error (.store (.modelMissing paths.model))
      else
        let m ← files.model.model
        return some (.byModel m threshold)

/-- A file is written beside its place and then takes its place, so that nobody sees half of it. -/
def replaceSteps (path : String) (bytes : ByteArray) : List FileStep :=
  let p := Path.parse path
  let draft := p.withEnding ".tmp"
  FileStep.makeWay p.parent ++ [.write draft bytes, .rename draft p]

/-- The steps that keep what is given. -/
def Calibration.steps (paths : ModelPaths) : Calibration → List FileStep
  | .byModel m threshold =>
    .remove (.parse paths.threshold) ::
      replaceSteps paths.model (String.ofList m.toJson.pretty).toUTF8 ++
      replaceSteps paths.threshold (thresholdText .model threshold).toUTF8 ++
      [.remove (.parse paths.marker)]
  | .byRate threshold =>
    replaceSteps paths.threshold (thresholdText .fallback threshold).toUTF8 ++
      replaceSteps paths.marker markerText.toUTF8

/-- The tree after keeping what is given, and whether that succeeded. -/
def FileTree.keep (t : FileTree) (paths : ModelPaths) (c : Calibration) : Bool × FileTree :=
  t.performAll (c.steps paths)

end TrafficWatch
