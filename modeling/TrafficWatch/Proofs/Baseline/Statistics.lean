import TrafficWatch.Baseline.Quantile
import TrafficWatch.Baseline.Statistics
import TrafficWatch.Proofs.Double.Finite

/-!
# Baseline — Statistics

When there is too little variety in samples to learn from, all their features are finite
(`isFinite_of_totalVariance_lt`): a feature that is not finite makes the variance infinite or no
number, and neither is below anything.  A quantile is one of the values (`mem_of_quantile`), so that
a threshold for the rate is finite as well.
-/

namespace TrafficWatch

open Double (Unsigned)

variable {i : Nat} (hi : i < 6)

/-- Sums of vectors are taken feature by feature. -/
theorem getElem_foldl_add (f : Features → Features) (samples : List Features) (sums : Features) :
    (samples.foldl (fun sums v => Vector.zipWith (· + ·) sums (f v)) sums)[i] =
      (samples.map fun v => (f v)[i]).foldl (· + ·) sums[i] := by
  induction samples generalizing sums with
  | nil => rfl
  | cons v samples ih =>
      rw [List.foldl_cons, ih, List.map_cons, List.foldl_cons, Vector.getElem_zipWith]

/-- The square of how far a feature of a sample is from the mean. -/
def squareFromMean (samples : List Features) (v : Features) : Float :=
  (v[i] - (means samples)[i]) * (v[i] - (means samples)[i])

/-- The variance of a feature is the mean of the squares. -/
theorem getElem_variances {samples : List Features} (h : samples ≠ []) :
    (variances samples)[i] =
      (samples.map (squareFromMean hi samples)).foldl (· + ·) 0.0 / Float.ofNat samples.length := by
  have hempty : ¬ samples.isEmpty = true := mt List.isEmpty_iff.mp h
  unfold variances
  rw [if_neg hempty]
  simp only [Vector.getElem_map, getElem_foldl_add, Vector.getElem_zipWith, Features.zero,
    Vector.getElem_replicate]
  rfl

theorem unsigned_variances (samples : List Features) : Unsigned (variances samples)[i] := by
  by_cases h : samples = []
  · subst h
    simp only [variances, List.isEmpty_nil, if_true, Features.zero, Vector.getElem_replicate]
    exact Double.unsigned_zero
  · rw [getElem_variances hi h]
    refine (Double.unsigned_foldl_add Double.unsigned_zero fun x hx => ?_).div
      (Double.unsigned_ofNat _)
    obtain ⟨v, -, rfl⟩ := List.mem_map.mp hx
    exact Unsigned.mul_self _

/-- **Samples of little variety are finite**, feature by feature. -/
theorem isFinite_of_totalVariance_lt {samples : List Features} {bound : Float}
    (h : totalVariance samples < bound) {v : Features} (hv : v ∈ samples) :
    v[i].isFinite = true := by
  have hunsigned : Unsigned (totalVariance samples) := by
    refine Double.unsigned_foldl_add Double.unsigned_zero fun x hx => ?_
    obtain ⟨j, hj, rfl⟩ := Vector.mem_iff_getElem.mp (Vector.mem_toList_iff.mp hx)
    exact unsigned_variances hj samples
  have htotal := hunsigned.isFinite_of_lt h
  have hvariance : (variances samples)[i].isFinite = true :=
    (Double.isFinite_of_foldl_add htotal).2 _ (Vector.mem_toList_iff.mpr (Vector.getElem_mem hi))
  rw [getElem_variances hi (List.ne_nil_of_mem hv)] at hvariance
  have hsquare := (Double.isFinite_of_foldl_add (Double.isFinite_of_div hvariance)).2 _
    (List.mem_map_of_mem hv)
  exact (Double.isFinite_of_sub (Double.isFinite_of_mul hsquare).1).1

/-- A quantile is one of the values. -/
theorem mem_of_quantile {values : List Float} {q x : Float} (h : quantile values q = some x) :
    x ∈ values :=
  List.mem_mergeSort.mp (List.mem_of_getElem? h)

end TrafficWatch
