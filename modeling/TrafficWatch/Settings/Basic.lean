import TrafficWatch.Files.Path
import TrafficWatch.Power
import TrafficWatch.Time.Instant

/-!
# Settings

What an operator can set about detection.  Settings are read once and never change.  Lengths of time
are given in seconds or minutes and are capped at a year (`Settings.duration`), so that no setting can
move a clock out of range, not even one that is refused.
-/

namespace TrafficWatch

/-- Which detectors judge the traffic. -/
inductive Mode where
  /-- The rules alone. -/
  | rules
  /-- The model alone. -/
  | model
  /-- The rules first, then the model. -/
  | hybrid
deriving Repr, DecidableEq

namespace Mode

/-- All modes. -/
def all : List Mode := [rules, model, hybrid]

/-- The name of a mode. -/
def name : Mode → String
  | rules => "rules"
  | model => "ml"
  | hybrid => "hybrid"

/-- The mode of the given name. -/
def ofName? (name : String) : Option Mode :=
  all.find? (·.name == name)

end Mode

/-- How outliers are scored. -/
inductive Algorithm where
  | principalComponents
  | isolationForest
deriving Repr, DecidableEq

namespace Algorithm

/-- All algorithms. -/
def all : List Algorithm := [principalComponents, isolationForest]

/-- The name of an algorithm. -/
def name : Algorithm → String
  | principalComponents => "pca"
  | isolationForest => "isolation_forest"

/-- The algorithm of the given name. -/
def ofName? (name : String) : Option Algorithm :=
  all.find? (·.name == name)

end Algorithm

/-- Where a model is kept between runs. -/
structure ModelPaths where
  model : String
  threshold : String
  marker : String
deriving Repr, DecidableEq

/-- The usual file names below a directory. -/
def ModelPaths.inDirectory (directory : String) : ModelPaths where
  model := Path.join directory "anomaly_model.json"
  threshold := Path.join directory "anomaly_threshold.txt"
  marker := Path.join directory "anomaly_fallback.marker"

/-- What an operator can set about detection. -/
structure Settings where
  mode : Mode := .rules
  /-- Above this many requests a second there is a spike. -/
  rpsThreshold : Float := 100.0
  /-- Above this many client errors in the error window there is a spike. -/
  clientErrorThreshold : Nat := 20
  /-- Above this many server errors in the error window there is a spike. -/
  serverErrorThreshold : Nat := 5
  /-- Above this many hits of the firewall in the error window there is a spike. -/
  wafThreshold : Nat := 0
  /-- Below this entropy a user agent says too little. -/
  agentEntropyThreshold : Float := 1.0
  rpsWindowSeconds : Nat := 1
  errorWindowSeconds : Nat := 60
  /-- How long a window is kept after its last event. -/
  windowTtlSeconds : Nat := 600
  /-- The least time between two sweeps of idle windows. -/
  pruneIntervalSeconds : Nat := 60
  /-- How many events may wait for the detectors. -/
  queueCapacity : Nat := 1000
  algorithm : Algorithm := .principalComponents
  /-- How many components a model may keep. -/
  rank : Nat := 20
  /-- How many clean events have to be seen before the first training. -/
  baselineSize : Nat := 500
  /-- How many clean events are remembered at most. -/
  baselineCap : Nat := 10000
  /-- How old the events of a training may be. -/
  trainingWindowMinutes : Nat := 60
  retrainIntervalMinutes : Nat := 10
  /-- The share of training scores that the threshold leaves below it. -/
  scoreQuantile : Float := 0.995
  /-- The least number of samples for a training after the first. -/
  minSamples : Nat := 100
  /-- Below this variance there is too little variety for a model. -/
  minVariance : Float := 1e-6
  /-- How many idle scorers are kept at most. -/
  scorerPoolSize : Nat
  /-- How long a running training is waited for at the end. -/
  shutdownGraceSeconds : Nat := 5
  paths : Option ModelPaths := none

/-- The usual settings on a machine with so many processors: two scorers for each of them. -/
def Settings.usual (processors : Nat) : Settings where
  scorerPoolSize := max processors 1 * 2

/-- The settings that are lengths of time. -/
inductive Span where
  | rpsWindow
  | errorWindow
  | windowTtl
  | pruneInterval
  | trainingWindow
  | retrainInterval
  | shutdownGrace
deriving Repr, DecidableEq

/-- All lengths of time, in the order in which they are checked. -/
def Span.all : List Span :=
  [rpsWindow, errorWindow, windowTtl, pruneInterval, trainingWindow, retrainInterval, shutdownGrace]

/-- The name of the setting. -/
def Span.settingName : Span → String
  | rpsWindow => "rps_window_secs"
  | errorWindow => "error_window_secs"
  | windowTtl => "window_ttl_secs"
  | pruneInterval => "prune_interval_secs"
  | trainingWindow => "training_window_minutes"
  | retrainInterval => "retrain_interval_minutes"
  | shutdownGrace => "retrain_shutdown_grace_secs"

namespace Settings

/-- The seconds of so many minutes, or the greatest number that a machine word holds. -/
def secondsOfMinutes (minutes : Nat) : Nat :=
  min (minutes * 60) (twoTo 64 - 1)

/-- The seconds that the settings give a length of time. -/
def givenSeconds (s : Settings) : Span → Nat
  | .rpsWindow => s.rpsWindowSeconds
  | .errorWindow => s.errorWindowSeconds
  | .windowTtl => s.windowTtlSeconds
  | .pruneInterval => s.pruneIntervalSeconds
  | .trainingWindow => secondsOfMinutes s.trainingWindowMinutes
  | .retrainInterval => secondsOfMinutes s.retrainIntervalMinutes
  | .shutdownGrace => s.shutdownGraceSeconds

/-- The longest time that can be set: 365 days. -/
def maxSeconds : Nat := 365 * 24 * 60 * 60

/-- The seconds of a length of time, capped at a year. -/
def seconds (s : Settings) (span : Span) : Nat :=
  min (s.givenSeconds span) maxSeconds

/-- A length of time, capped at a year. -/
def duration (s : Settings) (span : Span) : Duration :=
  .ofSeconds (s.seconds span)

end Settings

end TrafficWatch
