import TrafficWatch.Proofs.Baseline.Statistics
import TrafficWatch.Proofs.Double.Size
import TrafficWatch.Proofs.Pca.Fit

/-!
# Pca — Normalization

Finite samples in units of their scales.  If the scale of a feature is finite, then nothing that was
computed on the way to it has been too great (`Spread.isFinite_variance`).  A sample is then at most
`2 ^ 33` scales from the mean (`Spread.within_normalized`): its square is a part of the variance, and
a machine word holds the count of the samples.
-/

namespace TrafficWatch

open Double (Within AtLeast unit value isShort_zero isShort_unit)

/-! ### Scales -/

/-- What is almost nothing for a deviation. -/
theorem value_tiny : unit (-30) ≤ value 1e-9 ∧ (value 1e-9 : ℝ) < unit (-29) := by
  have hparts : Double.parts 1e-9 = .finite .positive 4835703278458517 (-82) (by decide) := rfl
  rw [value, hparts, Double.valueOfParts_finite, Double.oneOfSign_positive, one_mul,
    Double.unit_eq, Double.unit_eq, Double.unit_eq]
  norm_num

variable {deviation : Float}

/-- No scale is tiny. -/
theorem atLeast_scaleOf (deviation : Float) : AtLeast (unit (-30)) (scaleOf deviation) := by
  rw [scaleOf]
  split_ifs with h
  · exact (AtLeast.of_le rfl (Double.le_of_lt h)).mono value_tiny.1
  · refine .finite rfl ?_
    rw [Double.value_one, Rat.cast_one, ← Double.unit_zero]
    exact Double.unit_le_iff.mpr (by norm_num)

/-- A scale is as great as the deviation, or one for a tiny deviation. -/
theorem atLeast_scaleOf_of_atLeast {k : ℤ} (h : AtLeast (unit k) deviation) :
    AtLeast (unit k) (scaleOf deviation) := by
  rw [scaleOf]
  split_ifs with hlt
  · exact h
  · obtain ⟨hfinite, hle⟩ := h.finite_of_not_lt rfl hlt
    have hsmall : unit k < unit (-29) :=
      (h.le_value hfinite).trans_lt ((by exact_mod_cast hle : (value deviation : ℝ) ≤ value 1e-9).trans_lt
        value_tiny.2)
    refine .finite rfl ?_
    rw [Double.value_one, Rat.cast_one, ← Double.unit_zero]
    exact Double.unit_le_iff.mpr (by have := Double.unit_lt_iff.mp hsmall; omega)

theorem isFinite_of_scaleOf (h : AtLeast 0 deviation) (hscale : (scaleOf deviation).isFinite = true) :
    deviation.isFinite = true := by
  rw [scaleOf] at hscale
  split_ifs at hscale with hlt
  · exact hscale
  · exact (h.finite_of_not_lt rfl hlt).1

/-! ### Means and variances -/

variable {i : ℕ} (hi : i < 6) {samples : List Features}

/-- The mean of a feature. -/
theorem getElem_means (h : samples ≠ []) :
    (means samples)[i] =
      (samples.map fun v => v[i]).foldl (· + ·) 0.0 / Float.ofNat samples.length := by
  have hempty : ¬ samples.isEmpty = true := mt List.isEmpty_iff.mp h
  have hsums := getElem_foldl_add hi id samples Features.zero
  simp only [means, if_neg hempty, Vector.getElem_map]
  refine congrArg (· / _) (hsums.trans ?_)
  rw [Features.zero, Vector.getElem_replicate]
  rfl

/-- The scale of a feature is that of the root of its variance. -/
theorem getElem_scaling (h : samples ≠ []) :
    (PcaModel.scaling samples)[i] = scaleOf (variances samples)[i].sqrt := by
  have hrelative : (centered (means samples) samples).map (fun v => v.map fun x => x * x) ≠ [] := by
    simpa [centered] using h
  rw [PcaModel.scaling, scalesOf, Vector.getElem_map, getElem_means hi hrelative,
    getElem_variances hi h]
  simp only [centered, List.map_map, List.length_map, Function.comp_def, Vector.getElem_map,
    Vector.getElem_zipWith]
  rfl

/-- A finite feature of samples that a machine word counts. -/
structure IsMeasured (hi : i < 6) (samples : List Features) : Prop where
  nonempty : samples ≠ []
  counted : samples.length < 2 ^ 64
  finite : ∀ v ∈ samples, v[i].isFinite = true

/-- A finite feature with a finite scale. -/
structure IsScaled (hi : i < 6) (samples : List Features) : Prop extends IsMeasured hi samples where
  scale : (PcaModel.scaling samples)[i].isFinite = true

theorem within_ofNat {n : ℕ} (h : n < 2 ^ 64) : Within 64 (Float.ofNat n) := by
  refine (Double.isRounded_ofNat n).within ?_ (by norm_num) (by norm_num)
  rw [abs_of_nonneg (Nat.cast_nonneg n), Double.unit_ofNat]
  exact_mod_cast h.le

theorem atLeast_ofNat {n : ℕ} (h : 0 < n) : AtLeast (unit 0) (Float.ofNat n) := by
  refine (Double.isRounded_ofNat n).atLeast (isShort_unit (by norm_num)) (Double.unit_pos 0).le ?_
  rw [Double.unit_zero]
  exact_mod_cast h

namespace IsMeasured

variable {hi} (h : IsMeasured hi samples)
include h

theorem within_count : Within 64 (Float.ofNat samples.length) :=
  within_ofNat h.counted

theorem atLeast_count : AtLeast (unit 0) (Float.ofNat samples.length) :=
  atLeast_ofNat (List.length_pos_of_ne_nil h.nonempty)

theorem count_pos : 0 < value (Float.ofNat samples.length) := by
  have hle := h.atLeast_count.le_value h.within_count.finite
  exact_mod_cast (Double.unit_pos 0).trans_le hle

theorem isNaN_mean : (means samples)[i].isNaN = false := by
  have hsum (xs : List Float) (a : Float) (ha : a.isNaN = false) (hxs : ∀ x ∈ xs, x.isFinite = true) :
      (xs.foldl (· + ·) a).isNaN = false := by
    induction xs generalizing a with
    | nil => exact ha
    | cons x xs ih =>
        obtain ⟨hx, hxs⟩ := List.forall_mem_cons.mp hxs
        exact ih _ (Double.isNaN_add ha hx) hxs
  rw [getElem_means hi h.nonempty]
  exact Double.isNaN_div (hsum _ _ rfl (List.forall_mem_map.mpr h.finite)) h.within_count.finite
    h.count_pos.ne'

theorem isNaN_deviation {v : Features} (hv : v ∈ samples) :
    (v[i] - (means samples)[i]).isNaN = false :=
  Double.isNaN_sub (h.finite v hv) h.isNaN_mean

theorem atLeast_square {v : Features} (hv : v ∈ samples) :
    AtLeast 0 (squareFromMean hi samples v) :=
  .mul_self (h.isNaN_deviation hv) isShort_zero le_rfl fun _ => mul_self_nonneg _

theorem atLeast_squares :
    ∀ x ∈ samples.map (squareFromMean hi samples), AtLeast 0 x :=
  List.forall_mem_map.mpr fun _ hv => h.atLeast_square hv

theorem atLeast_sum {c : ℝ} {v : Features} (hv : v ∈ samples)
    (hsquare : AtLeast c (squareFromMean hi samples v)) (hc : Double.IsShort c) (hnonneg : 0 ≤ c) :
    AtLeast c ((samples.map (squareFromMean hi samples)).foldl (· + ·) 0.0) :=
  .foldl_add_of_mem Double.atLeast_zero h.atLeast_squares
    (List.mem_map_of_mem hv) hsquare hc hnonneg

/-- A sample far from the mean makes the root of the variance great. -/
theorem atLeast_root {k : ℤ} (hk : -500 ≤ k) {v : Features} (hv : v ∈ samples)
    (hfar : unit k ≤ |(value (v[i] - (means samples)[i]) : ℝ)|) :
    AtLeast (unit (k - 32)) (variances samples)[i].sqrt := by
  have hunits : unit (k + k) = unit (k + k - 64) * unit 64 := by
    rw [← Double.unit_add, sub_add_cancel]
  have hsquare : AtLeast (unit (k + k)) (squareFromMean hi samples v) := by
    refine .mul_self (h.isNaN_deviation hv) (isShort_unit (by omega)) (Double.unit_pos _).le fun _ => ?_
    rw [Double.unit_add, ← abs_mul_abs_self (value _ : ℝ)]
    exact mul_self_le_mul_self (Double.unit_pos k).le hfar
  have hvariance : AtLeast (unit (k + k - 64)) (variances samples)[i] := by
    rw [getElem_variances hi h.nonempty]
    refine (h.atLeast_sum hv hsquare (isShort_unit (by omega)) (Double.unit_pos _).le).div
      h.within_count.finite h.count_pos (isShort_unit (by omega)) (Double.unit_pos _).le ?_
    rw [hunits]
    exact mul_le_mul_of_nonneg_left ((le_abs_self _).trans h.within_count.le) (Double.unit_pos _).le
  refine hvariance.sqrt (isShort_unit (by omega)) (Double.unit_pos _).le ?_
  rw [← Double.unit_add]
  exact Double.unit_le_iff.mpr (by omega)

theorem atLeast_variance : AtLeast 0 (variances samples)[i] := by
  rw [getElem_variances hi h.nonempty]
  exact (Double.atLeast_zero.foldl_add h.atLeast_squares isShort_zero le_rfl).div
    h.within_count.finite h.count_pos isShort_zero le_rfl (zero_mul _).le

end IsMeasured

namespace IsScaled

variable {hi} (h : IsScaled hi samples)
include h

theorem isFinite_variance : (variances samples)[i].isFinite = true := by
  have hscale := h.scale
  rw [getElem_scaling hi h.nonempty] at hscale
  exact Double.isFinite_of_sqrt
    (isFinite_of_scaleOf (h.atLeast_variance.sqrt isShort_zero le_rfl (mul_zero 0).le) hscale)

theorem isFinite_deviation {v : Features} (hv : v ∈ samples) :
    (v[i] - (means samples)[i]).isFinite = true := by
  have hvariance := h.isFinite_variance
  rw [getElem_variances hi h.nonempty] at hvariance
  have hsquares := (Double.isFinite_of_foldl_add (Double.isFinite_of_div hvariance)).2
  exact (Double.isFinite_of_mul (hsquares _ (List.mem_map_of_mem hv))).1

theorem isFinite_mean : (means samples)[i].isFinite = true := by
  obtain ⟨v, hv⟩ := List.exists_mem_of_ne_nil samples h.nonempty
  exact (Double.isFinite_of_sub (h.isFinite_deviation hv)).2

/-- **No sample is far from the mean** in units of the scale. -/
theorem within_normalized {v : Features} (hv : v ∈ samples) :
    Within 33 ((v[i] - (means samples)[i]) / (PcaModel.scaling samples)[i]) := by
  have hfinite := h.isFinite_deviation hv
  have hscaling := getElem_scaling hi h.nonempty
  by_cases hnear : |(value (v[i] - (means samples)[i]) : ℝ)| ≤ unit (-500)
  · -- close to the mean: no scale is tiny
    have hscale : AtLeast (unit (-30)) (PcaModel.scaling samples)[i] :=
      hscaling ▸ atLeast_scaleOf _
    exact (Within.div ⟨hfinite, hnear⟩ hscale (by norm_num) (by norm_num)).mono (by norm_num)
  · -- farther away: the scale is at least a part of the distance
    have hpos : 0 < |(value (v[i] - (means samples)[i]) : ℝ)| :=
      (Double.unit_pos _).trans (not_le.mp hnear)
    obtain ⟨k, hlow, hhigh⟩ := exists_mem_Ico_zpow hpos one_lt_two
    rw [← Double.unit_eq] at hlow hhigh
    have hk : -500 ≤ k := by
      have := Double.unit_lt_iff.mp ((not_le.mp hnear).trans hhigh)
      omega
    have hscale : AtLeast (unit (k - 32)) (PcaModel.scaling samples)[i] :=
      hscaling ▸ atLeast_scaleOf_of_atLeast (h.atLeast_root hk hv hlow)
    have hquotient := Within.div ⟨hfinite, hhigh.le⟩ hscale (by omega) (by omega)
    exact hquotient.mono (by omega)

end IsScaled

/-! ### Moderate samples -/

/-- **Samples that are not too great have finite scales.** -/
theorem isScaled_of_within (hnonempty : samples ≠ []) (hcounted : samples.length < 2 ^ 64)
    (h : ∀ v ∈ samples, Within 333 v[i]) : IsScaled hi samples := by
  have hcount := atLeast_ofNat (List.length_pos_of_ne_nil hnonempty)
  have hmean : Within 387 (means samples)[i] := by
    rw [getElem_means hi hnonempty]
    exact (Within.foldl_add (Double.within_zero _) (List.forall_mem_map.mpr h) (by norm_num)
      (by norm_num)).div hcount (by norm_num) (by norm_num)
  have hsquares : ∀ x ∈ samples.map (squareFromMean hi samples), Within 776 x := by
    refine List.forall_mem_map.mpr fun v hv => ?_
    have hdeviation := ((h v hv).mono (by norm_num)).sub hmean (by norm_num) (by norm_num)
    exact hdeviation.mul hdeviation (by norm_num) (by norm_num)
  have hvariance : Within 830 (variances samples)[i] := by
    rw [getElem_variances hi hnonempty]
    exact (Within.foldl_add (Double.within_zero _) hsquares (by norm_num) (by norm_num)).div hcount
      (by norm_num) (by norm_num)
  have hmeasured : IsMeasured hi samples := ⟨hnonempty, hcounted, fun v hv => (h v hv).finite⟩
  have hnonneg := hmeasured.atLeast_variance.le_value hvariance.finite
  refine ⟨hmeasured, ?_⟩
  rw [getElem_scaling hi hnonempty, scaleOf]
  split_ifs
  · exact (hvariance.sqrt (by exact_mod_cast hnonneg) (by norm_num) (by norm_num)).finite
  · rfl

/-! ### A lone sample -/

/-- A zero, of either sign. -/
def IsNull (x : Float) : Prop :=
  x.isFinite = true ∧ value x = 0

theorem isNull_of_isRounded {w : ℝ} {x : Float} (h : Double.IsRounded w x) (hw : w = 0) :
    IsNull x := by
  have hzero : w = value 0.0 := by rw [hw, Double.value_zero, Rat.cast_zero]
  rw [hzero] at h
  exact h.value_eq rfl

theorem IsNull.add {x y : Float} (hx : IsNull x) (hy : IsNull y) : IsNull (x + y) :=
  isNull_of_isRounded (Double.isRounded_add hx.1 hy.1) (by simp [hx.2, hy.2])

theorem isNull_foldl_add {xs : List Float} {a : Float} (ha : IsNull a) (hxs : ∀ x ∈ xs, IsNull x) :
    IsNull (xs.foldl (· + ·) a) := by
  induction xs generalizing a with
  | nil => exact ha
  | cons x xs ih =>
      obtain ⟨hx, hxs⟩ := List.forall_mem_cons.mp hxs
      exact ih (ha.add hx) hxs

/-- One sample is its own mean. -/
theorem means_singleton {v : Features} (hv : v[i].isFinite = true) :
    (means [v])[i].isFinite = true ∧ value (means [v])[i] = value v[i] := by
  have hone : value (Float.ofNat 1) = 1 := by exact_mod_cast Double.value_ofNat (n := 1) (by norm_num)
  obtain ⟨hsum, hsumvalue⟩ : (0.0 + v[i]).isFinite = true ∧ value (0.0 + v[i]) = value v[i] := by
    have hrounded := Double.isRounded_add (x := 0.0) rfl hv
    rw [Double.value_zero, Rat.cast_zero, zero_add] at hrounded
    exact hrounded.value_eq hv
  have hrounded := Double.isRounded_div hsum (y := Float.ofNat 1) rfl (by rw [hone]; norm_num)
  rw [hone, Rat.cast_one, div_one, hsumvalue] at hrounded
  rw [getElem_means hi (List.cons_ne_nil v [])]
  exact hrounded.value_eq hv

/-- **One sample has no variance.** -/
theorem totalVariance_singleton {v : Features} (hv : ∀ i (hi : i < 6), v[i].isFinite = true) :
    IsNull (totalVariance [v]) := by
  refine isNull_foldl_add ⟨rfl, rfl⟩ fun x hx => ?_
  obtain ⟨i, hi, rfl⟩ := Vector.mem_iff_getElem.mp (Vector.mem_toList_iff.mp hx)
  obtain ⟨hmean, hvalue⟩ := means_singleton hi (hv i hi)
  have hdeviation : IsNull (v[i] - (means [v])[i]) :=
    isNull_of_isRounded (Double.isRounded_sub (hv i hi) hmean) (by rw [hvalue, sub_self])
  have hsquare : IsNull (squareFromMean hi [v] v) :=
    isNull_of_isRounded (Double.isRounded_mul hdeviation.1 hdeviation.1) (by simp [hdeviation.2])
  have hsum : IsNull (0.0 + squareFromMean hi [v] v) := .add ⟨rfl, rfl⟩ hsquare
  have hone : value (Float.ofNat 1) = 1 := by exact_mod_cast Double.value_ofNat (n := 1) (by norm_num)
  rw [getElem_variances hi (List.cons_ne_nil v [])]
  exact isNull_of_isRounded
    (Double.isRounded_div (y := Float.ofNat 1) hsum.1 rfl (by rw [hone]; norm_num)) (by simp [hsum.2])

end TrafficWatch
