import TrafficWatch.Baseline.Features

/-!
# Baseline — Statistics

Means and variances of samples, feature by feature.  Sums run in the order of the samples and
variances are taken over the whole population.  The sum of all variances tells whether there is
enough variety to learn from.
-/

namespace TrafficWatch

/-- The vector of zeros. -/
def Features.zero : Features :=
  Vector.replicate 6 0.0

/-- The mean of each feature. -/
def means (samples : List Features) : Features :=
  if samples.isEmpty then .zero
  else
    let sums := samples.foldl (fun sums v => Vector.zipWith (· + ·) sums v) Features.zero
    sums.map (· / Float.ofNat samples.length)

/-- The variance of each feature. -/
def variances (samples : List Features) : Features :=
  if samples.isEmpty then .zero
  else
    let center := means samples
    let squares (v : Features) : Features :=
      Vector.zipWith (fun x m => (x - m) * (x - m)) v center
    let sums := samples.foldl (fun sums v => Vector.zipWith (· + ·) sums (squares v)) Features.zero
    sums.map (· / Float.ofNat samples.length)

/-- The sum of the variances of all features. -/
def totalVariance (samples : List Features) : Float :=
  (variances samples).toList.foldl (· + ·) 0.0

end TrafficWatch
