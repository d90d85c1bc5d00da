import TrafficWatch.Setup.Reading
import TrafficWatch.Settings.Basic

/-!
# Settings — Tree

Settings as a tree of named values.  `Settings.toNode` names all of them in a fixed order, and
`Settings.ofNode` reads them again: what a tree does not name has its usual value.
-/

namespace TrafficWatch

open Setup (Node Reading Slot)

/-- The paths as a table. -/
def ModelPaths.toNode (p : ModelPaths) : Node :=
  .table [
    ("model_path", .text p.model),
    ("threshold_path", .text p.threshold),
    ("fallback_marker_path", .text p.marker)]

/-- The paths that have been read. -/
structure PathsDraft where
  model : Option String := none
  threshold : Option String := none
  marker : Option String := none

/-- The fields of the paths in their order. -/
def PathsDraft.fields (r : Reading) : List (Slot PathsDraft) := [
  ("model_path", fun n d => do return { d with model := ← r.text n }),
  ("threshold_path", fun n d => do return { d with threshold := ← r.text n }),
  ("fallback_marker_path", fun n d => do return { d with marker := ← r.text n })]

/-- The paths written by a node; none of them may be missing. -/
def ModelPaths.ofNode (r : Reading) (n : Node) : Option ModelPaths := do
  let d ← r.record (PathsDraft.fields r) {} n
  return ⟨← d.model, ← d.threshold, ← d.marker⟩

/-- The paths written by a node, if there are any. -/
def ModelPaths.optionOfNode (r : Reading) : Node → Option (Option ModelPaths)
  | .absent => some none
  | n => (ModelPaths.ofNode r n).map some

namespace Settings

/-- The settings as a table. -/
def toNode (s : Settings) : Node :=
  .table [
    ("mode", .text s.mode.name),
    ("rps_threshold", .real s.rpsThreshold),
    ("four_xx_threshold", .whole s.clientErrorThreshold),
    ("five_xx_threshold", .whole s.serverErrorThreshold),
    ("waf_threshold", .whole s.wafThreshold),
    ("ua_entropy_threshold", .real s.agentEntropyThreshold),
    ("rps_window_secs", .whole s.rpsWindowSeconds),
    ("error_window_secs", .whole s.errorWindowSeconds),
    ("window_ttl_secs", .whole s.windowTtlSeconds),
    ("prune_interval_secs", .whole s.pruneIntervalSeconds),
    ("feature_queue_capacity", .whole s.queueCapacity),
    ("algorithm", .text s.algorithm.name),
    ("pca_rank", .whole s.rank),
    ("baseline_sample_size", .whole s.baselineSize),
    ("baseline_hard_cap", .whole s.baselineCap),
    ("training_window_minutes", .whole s.trainingWindowMinutes),
    ("retrain_interval_minutes", .whole s.retrainIntervalMinutes),
    ("score_quantile", .real s.scoreQuantile),
    ("min_samples_guard", .whole s.minSamples),
    ("min_variance_guard", .real s.minVariance),
    ("scorer_pool_size", .whole s.scorerPoolSize),
    ("retrain_shutdown_grace_secs", .whole s.shutdownGraceSeconds),
    ("persistence", match s.paths with | some p => p.toNode | none => .absent)]

/-- A count of errors. -/
def readCount (r : Reading) : Node → Option Nat :=
  r.naturalBelow (twoTo 32)

/-- A number of things or of seconds or minutes. -/
def readNumber (r : Reading) : Node → Option Nat :=
  r.naturalBelow (twoTo 64)

/-- The fields of the settings in their order. -/
def fields (r : Reading) : List (Slot Settings) := [
  ("mode", fun n s => do return { s with mode := ← (r.word n).bind Mode.ofName? }),
  ("rps_threshold", fun n s => do return { s with rpsThreshold := ← r.real n }),
  ("four_xx_threshold", fun n s => do return { s with clientErrorThreshold := ← readCount r n }),
  ("five_xx_threshold", fun n s => do return { s with serverErrorThreshold := ← readCount r n }),
  ("waf_threshold", fun n s => do return { s with wafThreshold := ← readCount r n }),
  ("ua_entropy_threshold", fun n s => do return { s with agentEntropyThreshold := ← r.real n }),
  ("rps_window_secs", fun n s => do return { s with rpsWindowSeconds := ← readNumber r n }),
  ("error_window_secs", fun n s => do return { s with errorWindowSeconds := ← readNumber r n }),
  ("window_ttl_secs", fun n s => do return { s with windowTtlSeconds := ← readNumber r n }),
  ("prune_interval_secs", fun n s => do return { s with pruneIntervalSeconds := ← readNumber r n }),
  ("feature_queue_capacity", fun n s => do return { s with queueCapacity := ← readNumber r n }),
  ("algorithm", fun n s => do return { s with algorithm := ← (r.word n).bind Algorithm.ofName? }),
  ("pca_rank", fun n s => do return { s with rank := ← readNumber r n }),
  ("baseline_sample_size", fun n s => do return { s with baselineSize := ← readNumber r n }),
  ("baseline_hard_cap", fun n s => do return { s with baselineCap := ← readNumber r n }),
  ("training_window_minutes",
    fun n s => do return { s with trainingWindowMinutes := ← readNumber r n }),
  ("retrain_interval_minutes",
    fun n s => do return { s with retrainIntervalMinutes := ← readNumber r n }),
  ("score_quantile", fun n s => do return { s with scoreQuantile := ← r.real n }),
  ("min_samples_guard", fun n s => do return { s with minSamples := ← readNumber r n }),
  ("min_variance_guard", fun n s => do return { s with minVariance := ← r.real n }),
  ("scorer_pool_size", fun n s => do return { s with scorerPoolSize := ← readNumber r n }),
  ("retrain_shutdown_grace_secs",
    fun n s => do return { s with shutdownGraceSeconds := ← readNumber r n }),
  ("persistence", fun n s => do return { s with paths := ← ModelPaths.optionOfNode r n })]

/-- The settings written by a node, on a machine with so many processors. -/
def ofNode (processors : Nat) (r : Reading) (n : Node) : Option Settings :=
  r.record (fields r) (.usual processors) n

end Settings

end TrafficWatch
