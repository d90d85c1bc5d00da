import Mathlib.Analysis.InnerProductSpace.PiL2
import Mathlib.Analysis.InnerProductSpace.Projection.Basic
import TrafficWatch.Proofs.Double.Compare
import TrafficWatch.Proofs.Pca.Sound
import TrafficWatch.Proofs.Scalar

/-!
# Pca — Score

What a score measures, in exact arithmetic.  A vector that has been normalized is a point in the space
of the features, and the components are directions in it.  When they are orthonormal, the squared
projections add up to the squared length of the orthogonal projection onto their span
(`Pca.sum_squares`), so what is left of the squared length is that of the distance from the span, which
is never negative.  Hence a score is zero only where the point is (`Pca.score_exact`).
-/

namespace TrafficWatch

open scoped RealInnerProductSpace

/-- The space of the features. -/
abbrev FeatureSpace := EuclideanSpace ℝ (Fin 6)

/-- Numbers, one for each feature, as a point. -/
noncomputable def point (xs : List ℝ) : FeatureSpace :=
  WithLp.toLp _ fun i => xs.getD i 0

theorem eq_map_finRange {xs : List ℝ} (h : xs.length = 6) :
    xs = (List.finRange 6).map fun i : Fin 6 => xs.getD i 0 := by
  refine List.ext_getElem (by rw [h, List.length_map, List.length_finRange]) fun i hi _ => ?_
  rw [List.getElem_map, List.getElem_finRange]
  exact (List.getD_eq_getElem xs 0 hi).symm

/-- The product of two lists is that of the points. -/
theorem dot_eq_inner {xs ys : List ℝ} (hx : xs.length = 6) (hy : ys.length = 6) :
    Scalar.dot xs ys = ⟪point xs, point ys⟫ := by
  conv_lhs => rw [eq_map_finRange hx, eq_map_finRange hy]
  rw [Scalar.dot_map_finRange, PiLp.inner_apply]
  exact Finset.sum_congr rfl fun i _ => mul_comm _ _

/-- Only the zeros are the origin. -/
theorem point_eq_zero {xs : List ℝ} (h : xs.length = 6) :
    point xs = 0 ↔ ∀ x ∈ xs, x = 0 := by
  have hentry (i : Fin 6) : point xs i = xs.get (i.cast h.symm) :=
    List.getD_eq_getElem xs 0 (h.symm ▸ i.isLt)
  rw [PiLp.ext_iff, List.forall_mem_iff_get]
  simp only [hentry]
  exact (finCongr h.symm).forall_congr fun i => Iff.rfl

namespace Pca

/-- A model of real numbers whose lists fit each other, with positive numbers where it divides. -/
structure IsProper (m : Pca ℝ) : Prop where
  means : m.means.length = 6
  scales : m.scales.length = 6
  counts : m.components.length = m.eigenvalues.length
  rank : m.components.length ≤ 6
  components : ∀ c ∈ m.components, c.length = 6
  positive : ∀ x ∈ m.scales ++ m.eigenvalues, 0 < x

/-- The direction of a component. -/
noncomputable def axis (m : Pca ℝ) (i : Fin m.rank) : FeatureSpace :=
  point (m.components.get i)

/-- The variance along a component. -/
noncomputable def variance (m : Pca ℝ) (i : Fin m.rank) : ℝ :=
  m.eigenvalues.getD i 0

/-- The squared lengths of a point along the components, each divided by the variance there. -/
noncomputable def along (m : Pca ℝ) (z : FeatureSpace) : ℝ :=
  ∑ i, (m.axis i ⬝ᵥ z) ^ 2 / m.variance i

/-- What the components explain. -/
noncomputable def span (m : Pca ℝ) : Submodule ℝ FeatureSpace :=
  .span ℝ (Set.range m.axis)

/-- The squared distance of a point from its projection onto the components. -/
noncomputable def unexplained (m : Pca ℝ) (z : FeatureSpace) : ℝ :=
  ‖z - m.span.starProjection z‖ ^ 2

variable {m : Pca ℝ}

theorem along_eq (z : FeatureSpace) : m.along z = ∑ i, ⟪m.axis i, z⟫ ^ 2 / m.variance i := by
  refine Finset.sum_congr rfl fun i _ => ?_
  rw [EuclideanSpace.inner_eq_star_dotProduct, star_trivial, dotProduct_comm]

/-- Components are orthonormal as lists of numbers or as directions. -/
theorem orthonormal_axis_iff (hm : m.IsProper) :
    Orthonormal ℝ m.axis ↔ ∀ i j : Fin m.rank,
      Scalar.dot (m.components.get i) (m.components.get j) = if i = j then 1 else 0 := by
  rw [orthonormal_iff_ite]
  refine forall₂_congr fun i j => ?_
  rw [dot_eq_inner (hm.components _ (List.get_mem _ i)) (hm.components _ (List.get_mem _ j))]
  rfl

/-- **The orthogonal projection onto orthonormal components**, component by component. -/
theorem starProjection_eq (h : Orthonormal ℝ m.axis) (z : FeatureSpace) :
    m.span.starProjection z = ∑ i, ⟪m.axis i, z⟫ • m.axis i := by
  refine Submodule.eq_starProjection_of_mem_orthogonal ?_ ?_
  · exact Submodule.sum_mem _ fun i _ =>
      Submodule.smul_mem _ _ (Submodule.subset_span (Set.mem_range_self i))
  · -- what is left is orthogonal to every component
    have hleft (i : Fin m.rank) : ⟪m.axis i, z - ∑ j, ⟪m.axis j, z⟫ • m.axis j⟫ = 0 := by
      rw [inner_sub_right, h.inner_right_fintype, sub_self]
    rw [Submodule.mem_orthogonal]
    intro u hu
    induction hu using Submodule.span_induction with
    | mem u hu =>
        obtain ⟨i, rfl⟩ := hu
        exact hleft i
    | zero => exact inner_zero_left _
    | add u w _ _ hu hw => rw [inner_add_left, hu, hw, add_zero]
    | smul r u _ hu => rw [inner_smul_left, hu, mul_zero]

/-- **What is explained and what is not** make up the squared length. -/
theorem sum_squares (h : Orthonormal ℝ m.axis) (z : FeatureSpace) :
    ∑ i, ⟪m.axis i, z⟫ ^ 2 + m.unexplained z = ‖z‖ ^ 2 := by
  have hprojection : ‖m.span.starProjection z‖ ^ 2 = ∑ i, ⟪m.axis i, z⟫ ^ 2 := by
    rw [← real_inner_self_eq_norm_sq, starProjection_eq h, h.inner_sum]
    exact Finset.sum_congr rfl fun i _ => (sq _).symm
  rw [unexplained, ← Submodule.starProjection_orthogonal_val, ← hprojection]
  exact (Submodule.norm_sq_eq_add_norm_sq_starProjection z m.span).symm

/-! ### The score -/

section Lists

variable {zs : List ℝ}

/-- The squared projections of a vector, component by component. -/
theorem squares_eq_ofFn (hm : m.IsProper) (hz : zs.length = 6) :
    m.squares zs = List.ofFn fun i => ⟪m.axis i, point zs⟫ ^ 2 := by
  refine List.ext_getElem (by rw [squares, List.length_map, List.length_ofFn]; rfl) fun i hi hi' => ?_
  rw [List.getElem_ofFn]
  simp only [squares, List.getElem_map]
  rw [dot_eq_inner (hm.components _ (List.getElem_mem _)) hz, ← sq]
  rfl

theorem sum_squares_eq (hm : m.IsProper) (hz : zs.length = 6) :
    Scalar.sum (m.squares zs) = ∑ i, ⟪m.axis i, point zs⟫ ^ 2 := by
  rw [Scalar.real_sum, squares_eq_ofFn hm hz, List.sum_ofFn]

theorem sum_along_eq (hm : m.IsProper) (hz : zs.length = 6) :
    Scalar.sum (List.zipWith (· / ·) (m.squares zs) m.eigenvalues) = m.along (point zs) := by
  have hquotients : List.zipWith (· / ·) (m.squares zs) m.eigenvalues =
      List.ofFn fun i => ⟪m.axis i, point zs⟫ ^ 2 / m.variance i := by
    refine List.ext_getElem ?_ fun i hi _ => ?_
    · rw [List.length_zipWith, squares, List.length_map, ← hm.counts, min_self, List.length_ofFn]
      rfl
    · rw [List.length_zipWith] at hi
      have hvariance : m.eigenvalues.getD i 0 = m.eigenvalues[i] := List.getD_eq_getElem _ _ (by omega)
      simp only [List.getElem_zipWith, squares_eq_ofFn hm hz, List.getElem_ofFn, variance, hvariance]
  rw [Scalar.real_sum, hquotients, List.sum_ofFn, along_eq]

/-- A vector that is normalized has a number for each feature. -/
theorem length_normalize (hm : m.IsProper) {v : List ℝ} (hv : v.length = 6) :
    (m.normalize v).length = 6 := by
  rw [normalize, List.length_zipWith, List.length_zipWith, hv, hm.means, hm.scales]
  rfl

/-- Only the means are normalized to the origin. -/
theorem normalize_eq_zero (hm : m.IsProper) {v : List ℝ} (hv : v.length = 6) :
    point (m.normalize v) = 0 ↔ v = m.means := by
  have hpositive (i : Nat) (hi : i < m.scales.length) : m.scales[i] ≠ 0 :=
    (hm.positive _ (List.mem_append_left _ (List.getElem_mem hi))).ne'
  have hmeans := hm.means
  have hscales := hm.scales
  have hlength := length_normalize hm hv
  rw [point_eq_zero hlength, List.forall_mem_iff_getElem]
  constructor
  · intro h
    refine List.ext_getElem (hv.trans hmeans.symm) fun i hi _ => ?_
    have hzero := h i (by omega)
    simp only [normalize, List.getElem_zipWith] at hzero
    exact sub_eq_zero.mp ((div_eq_zero_iff.mp hzero).resolve_right (hpositive i (by omega)))
  · rintro rfl i hi
    simp only [normalize, List.getElem_zipWith, sub_self, zero_div]

end Lists

theorem variance_pos (hm : m.IsProper) (i : Fin m.rank) : 0 < m.variance i := by
  have hi : (i : Nat) < m.eigenvalues.length := hm.counts ▸ i.isLt
  rw [variance, List.getD_eq_getElem _ _ hi]
  exact hm.positive _ (List.mem_append_right _ (List.getElem_mem hi))

theorem along_nonneg (hm : m.IsProper) (z : FeatureSpace) : 0 ≤ m.along z :=
  Finset.sum_nonneg fun i _ => div_nonneg (sq_nonneg _) (variance_pos hm i).le

/-- Both parts of a score vanish only at the origin. -/
theorem along_add_unexplained_eq_zero (hm : m.IsProper) (h : Orthonormal ℝ m.axis)
    (z : FeatureSpace) : m.along z + m.unexplained z = 0 ↔ z = 0 := by
  have hunexplained : 0 ≤ m.unexplained z := sq_nonneg _
  have hterms (i : Fin m.rank) : 0 ≤ ⟪m.axis i, z⟫ ^ 2 / m.variance i :=
    div_nonneg (sq_nonneg _) (variance_pos hm i).le
  rw [add_eq_zero_iff_of_nonneg (along_nonneg hm z) hunexplained, along_eq,
    Finset.sum_eq_zero_iff_of_nonneg fun i _ => hterms i]
  constructor
  · rintro ⟨halong, hzero⟩
    have hprojection (i : Fin m.rank) : ⟪m.axis i, z⟫ ^ 2 = 0 :=
      (div_eq_zero_iff.mp (halong i (Finset.mem_univ i))).resolve_right (variance_pos hm i).ne'
    have hlength := sum_squares h z
    rw [hzero, add_zero, Finset.sum_eq_zero fun i _ => hprojection i] at hlength
    exact norm_eq_zero.mp (sq_eq_zero_iff.mp hlength.symm)
  · rintro rfl
    simp [unexplained]

end Pca

/-! ### Models of doubles -/

namespace PcaModel

/-- The numbers of a model, as they are. -/
noncomputable def exact (m : PcaModel) : Pca ℝ :=
  let real (x : Float) : ℝ := (Double.value x : ℚ)
  ⟨m.means.map real, m.scales.map real, m.components.map (·.map real), m.eigenvalues.map real,
    m.sampleCount⟩

/-- **A model that passes its check is proper.** -/
theorem isProper_exact {m : PcaModel} (h : fault? m = none) : m.exact.IsProper := by
  have hsound := fault?_eq_none.mp h
  refine ⟨?_, ?_, ?_, ?_, ?_, ?_⟩
  · exact List.length_map _ |>.trans hsound.means
  · exact List.length_map _ |>.trans hsound.scales
  · exact (List.length_map _).trans (hsound.counts.trans (List.length_map _).symm)
  · exact (List.length_map _).le.trans hsound.rank
  · exact List.forall_mem_map.mpr fun c hc => (List.length_map _).trans (hsound.components c hc)
  · change ∀ x ∈ m.scales.map _ ++ m.eigenvalues.map _, 0 < x
    rw [← List.map_append]
    refine List.forall_mem_map.mpr fun x hx => ?_
    have hvalue := (Double.lt_iff_value rfl (hsound.finite x (mem_numbers hx))).mp
      (hsound.positive x hx)
    exact Rat.cast_pos.mpr hvalue

end PcaModel

namespace Pca

/-- **What a score measures**, in exact arithmetic.  For a model that passes its check and has
orthonormal components, of whatever rank, the score of a vector is the sum of its squared lengths along
the components, each divided by the variance there, and of its squared distance from its projection
onto them.  What is explained never exceeds the squared length, so the score would be the same if
nothing were cut off at zero; it is never negative, and zero for the means only. -/
theorem score_exact :
    (∀ m : Pca ℝ, m.IsProper → Orthonormal ℝ m.axis → ∀ v : List ℝ, v.length = 6 →
      let z := m.normalize v
      let squares := m.projections z
      let explained := Scalar.sum (squares.map (·.1))
      m.score v = m.along (point z) + m.unexplained (point z) ∧
      0 ≤ Scalar.dot z z - explained ∧
      m.score v = Scalar.sum (squares.map fun (square, eigenvalue) => square / eigenvalue) +
        (Scalar.dot z z - explained) ∧
      0 ≤ m.score v ∧
      (m.score v = 0 ↔ v = m.means)) ∧
    ∀ m : PcaModel, PcaModel.fault? m = none → m.exact.IsProper := by
  refine ⟨fun m hm h v hv => ?_, fun m => PcaModel.isProper_exact⟩
  intro z squares explained
  have hz : z.length = 6 := length_normalize hm hv
  have hcount : (m.squares z).length = m.eigenvalues.length :=
    (List.length_map _).trans hm.counts
  have hexplained : explained = ∑ i, ⟪m.axis i, point z⟫ ^ 2 := by
    rw [← sum_squares_eq hm hz, ← List.map_fst_zip hcount.le, ← projections_eq]
  have halong : Scalar.sum (squares.map fun (square, eigenvalue) => square / eigenvalue) =
      m.along (point z) := by
    rw [← sum_along_eq hm hz, ← List.map_uncurry_zip_eq_zipWith, ← projections_eq]
    rfl
  have hleft : Scalar.dot z z - explained = m.unexplained (point z) := by
    rw [dot_eq_inner hz hz, real_inner_self_eq_norm_sq, hexplained, ← sum_squares h,
      add_sub_cancel_left]
  have hnonneg : 0 ≤ m.unexplained (point z) := sq_nonneg _
  have hscore : m.score v = m.along (point z) + m.unexplained (point z) := by
    change Scalar.sum (squares.map fun (square, eigenvalue) => square / eigenvalue) +
      max (Scalar.dot z z - explained) 0 = _
    rw [halong, hleft, max_eq_left hnonneg]
  refine ⟨hscore, hleft ▸ hnonneg, by rw [hscore, halong, hleft], ?_, ?_⟩
  · rw [hscore]
    exact add_nonneg (along_nonneg hm _) hnonneg
  · rw [hscore, along_add_unexplained_eq_zero hm h, normalize_eq_zero hm hv]

/-- A model with two components, which stand askew. -/
noncomputable def askew : Pca ℝ where
  means := [1, 0, 0, 0, 5, 0]
  scales := [5, 1, 1, 1, 1, 1]
  components := [[3 / 5, 0, 0, 0, 4 / 5, 0], [-4 / 5, 0, 0, 0, 3 / 5, 0]]
  eigenvalues := [3, 1 / 3]
  sampleCount := 2

theorem isProper_askew : askew.IsProper where
  means := rfl
  scales := rfl
  counts := rfl
  rank := by decide
  components := by simp [askew]
  positive := by simp [askew]

theorem orthonormal_askew : Orthonormal ℝ askew.axis := by
  let first : List ℝ := [3 / 5, 0, 0, 0, 4 / 5, 0]
  let second : List ℝ := [-4 / 5, 0, 0, 0, 3 / 5, 0]
  have hdot (c d : List ℝ) : Scalar.dot c d = (List.zipWith (· * ·) c d).sum := Scalar.real_sum _
  have hfirst : Scalar.dot first first = 1 := by norm_num [hdot, first]
  have hsecond : Scalar.dot second second = 1 := by norm_num [hdot, second]
  have hboth : Scalar.dot first second = 0 ∧ Scalar.dot second first = 0 := by
    norm_num [hdot, first, second]
  rw [orthonormal_axis_iff isProper_askew]
  exact Fin.forall_fin_two.mpr ⟨Fin.forall_fin_two.mpr ⟨hfirst, hboth.1⟩,
    Fin.forall_fin_two.mpr ⟨hboth.2, hsecond⟩⟩

/-- A vector off the means, and the means. -/
theorem score_exact_askew :
    askew.IsProper ∧ Orthonormal ℝ askew.axis ∧
      0 < askew.score [3, 0, 0, 0, 5, 1] ∧ askew.score [1, 0, 0, 0, 5, 0] = 0 := by
  obtain ⟨-, -, -, hnonneg, hzero⟩ :=
    score_exact.1 askew isProper_askew orthonormal_askew [3, 0, 0, 0, 5, 1] rfl
  obtain ⟨-, -, -, -, hmeans⟩ :=
    score_exact.1 askew isProper_askew orthonormal_askew [1, 0, 0, 0, 5, 0] rfl
  refine ⟨isProper_askew, orthonormal_askew, hnonneg.lt_of_ne' ?_, hmeans.mpr rfl⟩
  rw [Ne, hzero]
  simp [askew]

end Pca

end TrafficWatch
