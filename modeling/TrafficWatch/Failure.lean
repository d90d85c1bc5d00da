import TrafficWatch.Settings.Validity
import TrafficWatch.Pca.Model
import TrafficWatch.Json.Document
import TrafficWatch.Text.Quoted

/-!
# Failure

Everything that can go wrong, by its cause.  Each failure belongs to a kind, which gives the first
words of its text and tells whether the configuration is to blame.  The texts of failures to read
files and sources are left to whoever has met them.
-/

namespace TrafficWatch

/-- The kinds of failures that have a text of their own. -/
inductive ErrorKind where
  | config
  | invalidConfiguration
  | notSupported
  | persistence
  | model
  | internal
deriving Repr, DecidableEq

namespace ErrorKind

/-- All kinds. -/
def all : List ErrorKind :=
  [config, invalidConfiguration, notSupported, persistence, model, internal]

/-- The first words of the text. -/
def label : ErrorKind → String
  | config => "Configuration error"
  | invalidConfiguration => "Invalid configuration"
  | notSupported => "Not supported"
  | persistence => "Persistence error"
  | model => "Model error"
  | internal => "Internal error"

/-- The text of a failure of this kind. -/
def text (k : ErrorKind) (message : String) : String :=
  k.label ++ ": " ++ message

/-- Whether the configuration is to blame. -/
def isConfiguration : ErrorKind → Bool
  | config | invalidConfiguration | notSupported => true
  | persistence | model | internal => false

end ErrorKind

/-- Why kept files cannot be used. -/
inductive StoreFault where
  | thresholdMissing (path : String)
  | modelMissing (path : String)
  | unknownKind (word : List Char)
  | unparsable (text : List Char)
  | notFinite (threshold : Float)

/-- The words for a fault of kept files. -/
def StoreFault.message : StoreFault → String
  | thresholdMissing path => "threshold file missing: " ++ path
  | modelMissing path => "model file missing: " ++ path
  | unknownKind word => "unknown threshold kind: " ++ String.ofList (Text.quoted word)
  | unparsable text => "unparsable threshold: " ++ String.ofList (Text.quoted text)
  | notFinite threshold => "non-finite threshold: " ++ Decimal.Layout.plain.text threshold

/-- What can go wrong. -/
inductive Failure where
  | settings (flaw : Flaw)
  | unavailable (algorithm : Algorithm)
  | model (fault : ModelFault)
  | store (fault : StoreFault)
  | json (fault : Json.Fault)
  /-- A file cannot be read or is no text. -/
  | unreadable
  /-- A source of the configuration cannot be read, or holds something of another shape. -/
  | source

namespace Failure

/-- The kind of a failure, if it has a text of its own. -/
def kind? : Failure → Option ErrorKind
  | settings _ => some .invalidConfiguration
  | unavailable _ => some .notSupported
  | model _ => some .model
  | store _ => some .persistence
  | json _ | unreadable | source => none

/-- The words for a failure. -/
def message : Failure → String
  | settings flaw => flaw.message
  | unavailable algorithm =>
    s!"{algorithm.name} outlier algorithm is not available; use {Algorithm.principalComponents.name}"
  | model fault => fault.message
  | store fault => fault.message
  | json fault => fault.category
  | unreadable => "unreadable file"
  | source => "unreadable source"

/-- The text of a failure. -/
def text (f : Failure) : String :=
  match f.kind? with
  | some kind => kind.text f.message
  | none => f.message

end Failure

end TrafficWatch
