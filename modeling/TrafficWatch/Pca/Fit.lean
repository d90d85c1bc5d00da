import TrafficWatch.Pca.Model
import TrafficWatch.Pca.Rotation
import TrafficWatch.Baseline.Statistics
import TrafficWatch.TotalOrder

/-!
# Pca — Fit

Learning a model from samples.  Features are centred on their means and divided by their standard
deviations; a feature that hardly varies is only centred.  The components are the eigenvectors of the
covariance of what results, those of the largest eigenvalues first.  Eigenvalues that vanish beside
the largest one are left out, so directions without variance show in the part of the score that is
not explained.

The covariance is a product of matrices, and in which order the library that multiplies them adds up the
products is its own affair: a fit is given a `ProductSum`, and what is proved of fits holds for every
order.
-/

namespace TrafficWatch

/-- The scale of a feature with the given standard deviation. -/
def scaleOf (deviation : Float) : Float :=
  if 1e-9 < deviation then deviation else 1.0

/-- The vectors relative to a center. -/
def centered (center : Features) (samples : List Features) : List Features :=
  samples.map fun v => Vector.zipWith (· - ·) v center

/-- The scale of each feature. -/
def scalesOf (relative : List Features) : Features :=
  (means (relative.map fun v => v.map fun x => x * x)).map fun m => scaleOf m.sqrt

/-- A way to add up the products of pairs of numbers. -/
abbrev ProductSum := List (Float × Float) → Float

/-- One product after the other, each of them rounded before it is added. -/
def ProductSum.inOrder : ProductSum := fun pairs =>
  Scalar.sum (pairs.map fun p => p.1 * p.2)

/-- The covariance of vectors whose mean is zero. -/
def covariance (add : ProductSum) (relative : List Features) : Square Float 6 :=
  let count := Float.ofNat relative.length
  Square.ofFn fun i j => add (relative.map fun v => (v[i], v[j])) / count

/-- Eigenvalues with their eigenvectors, the largest first; equal ones keep their order. -/
def eigenpairs (d : Diagonalization Float 6) : List (Float × List Float) :=
  ((List.finRange 6).map fun i => (d.matrix.entry i i, d.basis.column i)).mergeSort
    fun a b => TotalOrder.le b.1 a.1

/-- The larger of two numbers; what is not a number is passed over. -/
def larger (x y : Float) : Float :=
  if x.isNaN then y else if x < y then y else x

/-- The eigenvalue that a component has to exceed. -/
def cutoff (eigenvalues : List Float) : Float :=
  larger (eigenvalues.foldl larger 0.0 * 1e-9) 1e-12

namespace PcaModel

/-- The model of samples, with at most `rank` components. -/
def fit (add : ProductSum) (samples : List Features) (rank : Nat) : Except ModelFault PcaModel :=
  if samples.length < 2 then .error (.tooFewSamples samples.length)
  else
    let center := means samples
    let relative := centered center samples
    let scales := scalesOf relative
    let normalized := relative.map fun v => Vector.zipWith (· / ·) v scales
    let form := diagonalize (covariance add normalized)
    let eigenvalues := form.matrix.diagonal
    if !eigenvalues.all Float.isFinite then .error .diverged
    else
      let least := cutoff eigenvalues
      let kept := ((eigenpairs form).take (min (max rank 1) dimension)).filter fun p => least < p.1
      checked {
        means := center.toList
        scales := scales.toList
        components := kept.map (·.2)
        eigenvalues := kept.map (·.1)
        sampleCount := samples.length }

end PcaModel

end TrafficWatch
