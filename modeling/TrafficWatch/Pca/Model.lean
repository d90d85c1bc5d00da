import TrafficWatch.Scalar
import TrafficWatch.Baseline.Features
import TrafficWatch.Decimal.Layout

/-!
# Pca — Model

Principal components of normal traffic, and how far a vector lies from them.  A model knows mean and
scale of each feature and the directions in which normal traffic varies.  The score of a vector is the
sum of two parts: its squared lengths along the components, each divided by the variance there, and
the squared length of what the components do not explain.
-/

namespace TrafficWatch

/-- Principal components with their variances. -/
structure Pca (α : Type) where
  means : List α
  scales : List α
  components : List (List α)
  eigenvalues : List α
  sampleCount : Nat

/-- A model over doubles. -/
abbrev PcaModel := Pca Float

namespace Pca

section Score

variable {α : Type} [Scalar α]

/-- A vector relative to the means, in units of the scales. -/
def normalize (m : Pca α) (v : List α) : List α :=
  List.zipWith (· / ·) (List.zipWith (· - ·) v m.means) m.scales

/-- The squared projections on the components and their variances. -/
def projections (m : Pca α) (z : List α) : List (α × α) :=
  List.zipWith (fun component eigenvalue =>
    (Scalar.dot component z * Scalar.dot component z, eigenvalue)) m.components m.eigenvalues

/-- The score of a vector that has been normalized. -/
def scoreNormalized (m : Pca α) (z : List α) : α :=
  let squares := m.projections z
  let along := Scalar.sum (squares.map fun (square, eigenvalue) => square / eigenvalue)
  let explained := Scalar.sum (squares.map (·.1))
  along + Scalar.positivePart (Scalar.dot z z - explained)

/-- The score of a vector. -/
def score (m : Pca α) (v : List α) : α :=
  m.scoreNormalized (m.normalize v)

end Score

/-- The number of features of a model. -/
def dimension {α : Type} (m : Pca α) : Nat :=
  m.means.length

/-- The number of components of a model. -/
def rank {α : Type} (m : Pca α) : Nat :=
  m.components.length

end Pca

/-- Why there is no model, or none that can be used. -/
inductive ModelFault where
  | tooFewSamples (count : Nat)
  | diverged
  | wrongDimensions (means scales : Nat)
  | countsDiffer
  | tooManyComponents
  | wrongComponent
  | notFinite
  | notPositive
  | noScores
  | noSamples
  | badThreshold (threshold : Float)

/-- The words for a fault of a model. -/
def ModelFault.message : ModelFault → String
  | tooFewSamples count => s!"PCA needs at least 2 samples, got {count}"
  | diverged => "eigen decomposition diverged"
  | wrongDimensions means scales => s!"expected 6 dimensions, got means={means} scales={scales}"
  | countsDiffer => "component and eigenvalue counts differ"
  | tooManyComponents => "rank exceeds feature dimension"
  | wrongComponent => "component has wrong dimension"
  | notFinite => "model contains non-finite values"
  | notPositive => "scales and eigenvalues must be positive"
  | noScores => "no training scores"
  | noSamples => "no training samples"
  | badThreshold threshold => "non-finite threshold " ++ Decimal.Layout.plain.text threshold

namespace PcaModel

/-- All numbers of a model. -/
def numbers (m : PcaModel) : List Float :=
  m.means ++ m.scales ++ m.eigenvalues ++ m.components.flatten

/-- What is wrong with a model, if anything: the shape first, then the numbers. -/
def fault? (m : PcaModel) : Option ModelFault :=
  if m.means.length ≠ dimension ∨ m.scales.length ≠ dimension then
    some (.wrongDimensions m.means.length m.scales.length)
  else if m.components.length ≠ m.eigenvalues.length then some .countsDiffer
  else if dimension < m.components.length then some .tooManyComponents
  else if m.components.any (fun c => c.length ≠ dimension) then some .wrongComponent
  else if !(numbers m).all Float.isFinite then some .notFinite
  else if m.scales.any (· ≤ 0.0) || m.eigenvalues.any (· ≤ 0.0) then some .notPositive
  else none

/-- The model, if nothing is wrong with it. -/
def checked (m : PcaModel) : Except ModelFault PcaModel :=
  match fault? m with
  | some fault => .error fault
  | none => .ok m

end PcaModel

end TrafficWatch
