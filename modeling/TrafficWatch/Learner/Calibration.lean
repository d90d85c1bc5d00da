import TrafficWatch.Pca.Fit
import TrafficWatch.Baseline.Quantile
import TrafficWatch.Settings.Basic

/-!
# Learner — Calibration

What a training finds: a way to score with its threshold.  With enough variety in the samples a model
is fitted; with too little the rate itself is the score.  Either way the threshold is a quantile of
the scores of the samples, so it is the score of one of them.
-/

namespace TrafficWatch

/-- A way to score with its threshold. -/
inductive Calibration where
  /-- The score is the rate. -/
  | byRate (threshold : Float)
  /-- The score is that of a model. -/
  | byModel (model : PcaModel) (threshold : Float)

/-- The threshold that was found. -/
def Calibration.threshold : Calibration → Float
  | byRate threshold => threshold
  | byModel _ threshold => threshold

/-- Settings on a machine.  How products are added up is up to the machine, and no operator sets it. -/
structure Deployment extends Settings where
  products : ProductSum

namespace Settings

/-- Whether samples of the given variance have too little variety for a model. -/
def isDegenerate (s : Settings) (variance : Float) : Bool :=
  variance < s.minVariance

/-- A threshold for the rate. -/
def calibrateByRate (s : Settings) (samples : List Features) : Except ModelFault Calibration :=
  match quantile (samples.map Features.rate) s.scoreQuantile with
  | some threshold => .ok (.byRate threshold)
  | none => .error .noSamples

end Settings

namespace Deployment

/-- A model of the samples with a threshold for its scores. -/
def calibrateByModel (d : Deployment) (samples : List Features) : Except ModelFault Calibration := do
  let model ← PcaModel.fit d.products samples d.rank
  match quantile (samples.map fun v => model.score v.toList) d.scoreQuantile with
  | none => .error .noScores
  | some threshold =>
    if threshold.isFinite then .ok (.byModel model threshold) else .error (.badThreshold threshold)

/-- The calibration that the variety of the samples allows. -/
def calibrate (d : Deployment) (samples : List Features) : Except ModelFault Calibration :=
  if d.isDegenerate (totalVariance samples) then d.calibrateByRate samples
  else d.calibrateByModel samples

end Deployment

end TrafficWatch
