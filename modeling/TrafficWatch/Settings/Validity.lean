import TrafficWatch.Settings.Basic
import TrafficWatch.Decimal.Layout

/-!
# Settings — Validity

Which settings can be run.  The rules are checked in a fixed order and the first one that is broken
is the `Flaw` of the settings (`Settings.flaw?`); settings without a flaw are sound.
-/

namespace TrafficWatch

/-- What is wrong with settings. -/
inductive Flaw where
  | noQueue
  | noRuleWindow
  | shareOutOfRange (share : Float)
  | noBaseline
  | capBelowBaseline (cap size : Nat)
  | noRank
  | noScorer
  | noRetrainInterval
  | tooLong (span : Span)
  | badVarianceGuard

/-- The words for a flaw. -/
def Flaw.message : Flaw → String
  | noQueue => "feature_queue_capacity must be greater than 0"
  | noRuleWindow => "rule windows must be at least 1 second"
  | shareOutOfRange share =>
    "score_quantile must be within [0, 1], got " ++ Decimal.Layout.plain.text share
  | noBaseline => "baseline_sample_size must be greater than 0"
  | capBelowBaseline cap size =>
    s!"baseline_hard_cap ({cap}) is smaller than baseline_sample_size ({size})"
  | noRank => "pca_rank must be greater than 0"
  | noScorer => "scorer_pool_size must be greater than 0"
  | noRetrainInterval => "retrain_interval_minutes must be greater than 0"
  | tooLong span =>
    s!"{span.settingName} exceeds the maximum of {Settings.maxSeconds} seconds"
  | badVarianceGuard => "min_variance_guard must be a non-negative number"

namespace Settings

/-- Whether a number lies between zero and one. -/
def isShare (x : Float) : Bool :=
  0.0 ≤ x && x ≤ 1.0

/-- The rules of sound settings in order: whether each is broken, and the flaw this is. -/
def rules (s : Settings) : List (Bool × Flaw) :=
  [(s.queueCapacity == 0, .noQueue),
    (s.rpsWindowSeconds == 0 || s.errorWindowSeconds == 0, .noRuleWindow),
    (!isShare s.scoreQuantile, .shareOutOfRange s.scoreQuantile),
    (s.baselineSize == 0, .noBaseline),
    (s.baselineCap < s.baselineSize, .capBelowBaseline s.baselineCap s.baselineSize),
    (s.rank == 0, .noRank),
    (s.scorerPoolSize == 0, .noScorer),
    (s.retrainIntervalMinutes == 0, .noRetrainInterval)] ++
  Span.all.map (fun span => (decide (maxSeconds < s.givenSeconds span), .tooLong span)) ++
  [(!s.minVariance.isFinite || s.minVariance < 0.0, .badVarianceGuard)]

/-- The first rule that is broken. -/
def flaw? (s : Settings) : Option Flaw :=
  (s.rules.find? (·.1)).map (·.2)

end Settings

end TrafficWatch
