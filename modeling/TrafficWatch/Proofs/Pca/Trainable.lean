import TrafficWatch.Proofs.Pca.Growth
import TrafficWatch.Proofs.Pca.Normalization
import TrafficWatch.Proofs.Pca.Products

/-!
# Pca — Trainable

Samples from which a model can be learned.  When every feature is finite with a finite scale
(`IsTrainable`), then so is everything that a fit computes: the covariance, its diagonal form, and the
scores that the model gives to the samples (`IsTrainable.exists_fit_eq_ok`,
`IsTrainable.isFinite_score`).  Two samples are enough, and it makes no difference in which order the
products of the covariance are added up.
-/

namespace TrafficWatch

open Double (Within AtLeast unit value isShort_zero isShort_unit)

/-- Samples of finite features with finite scales. -/
def IsTrainable (samples : List Features) : Prop :=
  ∀ i (hi : i < 6), IsScaled hi samples

/-! ### Sums of products -/

theorem forall_mem_zipWith {α β γ : Type*} {f : α → β → γ} {P : α → Prop} {Q : β → Prop}
    {R : γ → Prop} (hf : ∀ a b, P a → Q b → R (f a b)) {as : List α} {bs : List β}
    (has : ∀ a ∈ as, P a) (hbs : ∀ b ∈ bs, Q b) : ∀ c ∈ List.zipWith f as bs, R c := by
  intro c hc
  rw [← List.map_uncurry_zip_eq_zipWith] at hc
  obtain ⟨⟨a, b⟩, hab, rfl⟩ := List.mem_map.mp hc
  obtain ⟨ha, hb⟩ := List.of_mem_zip hab
  exact hf a b (has a ha) (hbs b hb)

section Sums

variable {k l : ℤ} {xs ys : List Float}

theorem within_sum_list (h : ∀ x ∈ xs, Within k x) (hlow : -1074 ≤ k) (hhigh : k ≤ 969) :
    Within (k + 54) (Scalar.sum xs) :=
  Within.foldl_add (Double.within_zero _) h hlow hhigh

theorem within_dot (hxs : ∀ x ∈ xs, Within k x) (hys : ∀ y ∈ ys, Within l y) (hlow : -1074 ≤ k + l)
    (hhigh : k + l ≤ 969) : Within (k + l + 54) (Scalar.dot xs ys) :=
  within_sum_list (forall_mem_zipWith (fun _ _ hx hy => hx.mul hy hlow (by omega)) hxs hys) hlow hhigh

theorem within_positivePart {x : Float} (h : Within k x) : Within k (Scalar.positivePart x) := by
  change Within k (if 0.0 < x then x else 0.0)
  split_ifs
  · exact h
  · exact Double.within_zero k

end Sums

/-! ### Scores -/

namespace Pca

/-- **A score of doubles within bounds is finite.** -/
theorem isFinite_scoreNormalized {m : PcaModel} {z : List Float} (hz : ∀ x ∈ z, Within 33 x)
    (hcomponents : ∀ c ∈ m.components, ∀ x ∈ c, Within 248 x)
    (heigenvalues : ∀ x ∈ m.eigenvalues, AtLeast (unit (-40)) x) :
    (m.scoreNormalized z).isFinite = true := by
  have hsquare (c : List Float) (hc : c ∈ m.components) :
      Within 670 (Scalar.dot c z * Scalar.dot c z) := by
    have hdot := within_dot (hcomponents c hc) hz (by norm_num) (by norm_num)
    exact hdot.mul hdot (by norm_num) (by norm_num)
  have hpairs : ∀ p ∈ m.projections z, Within 670 p.1 ∧ AtLeast (unit (-40)) p.2 :=
    forall_mem_zipWith (fun _ _ hc he => ⟨hc, he⟩) hsquare heigenvalues
  have halong := within_sum_list (k := 710)
    (List.forall_mem_map.mpr fun p hp => (hpairs p hp).1.div (hpairs p hp).2 (by norm_num)
      (by norm_num)) (by norm_num) (by norm_num)
  have hexplained := within_sum_list (List.forall_mem_map.mpr fun p hp => (hpairs p hp).1)
    (by norm_num) (by norm_num)
  have hall := (within_dot hz hz (by norm_num) (by norm_num)).mono (l := 670 + 54) (by norm_num)
  have hrest := within_positivePart (hall.sub hexplained (by norm_num) (by norm_num))
  exact (halong.add (hrest.mono (by norm_num)) (by norm_num) (by norm_num)).finite

end Pca

/-! ### Cutoffs -/

/-- What exceeds something that is not below a bound is not below it either. -/
theorem atLeast_of_lt {x y : Float} {b : ℝ} (hx : AtLeast b x) (h : x < y) : AtLeast b y := by
  cases hx with
  | finite hx hle => exact (AtLeast.of_le hx (Double.le_of_lt h)).mono hle
  | infinite hx =>
      rw [Double.lt_iff, hx] at h
      generalize Double.parts y = v at h
      rcases v with (_ | _) | _ | _ | _ <;> cases h

theorem atLeast_larger {x y : Float} (hy : y.isFinite = true) : AtLeast (value y) (larger x y) := by
  rw [larger]
  split_ifs with hnan hlt
  · exact .finite hy le_rfl
  · exact .finite hy le_rfl
  · exact .of_le hy ((Double.le_iff_not_lt (Double.isNaN_of_isFinite hy) (by simpa using hnan)).mpr hlt)

/-- No eigenvalue that is kept is tiny. -/
theorem atLeast_cutoff (eigenvalues : List Float) : AtLeast (unit (-40)) (cutoff eigenvalues) := by
  refine (atLeast_larger (y := 1e-12) rfl).mono ?_
  have hparts : Double.parts 1e-12 = .finite .positive 4951760157141521 (-92) (by decide) := rfl
  rw [value, hparts, Double.valueOfParts_finite, Double.oneOfSign_positive, one_mul,
    Double.unit_eq, Double.unit_eq]
  norm_num

/-! ### Fits -/

namespace IsTrainable

variable {add : ProductSum} {samples : List Features} (h : IsTrainable samples)
include h

/-- A sample in units of the scales. -/
theorem within_normalized {v : Features} (hv : v ∈ samples) :
    ∀ x ∈ (Vector.zipWith (· / ·) (Vector.zipWith (· - ·) v (means samples))
      (PcaModel.scaling samples)).toList, Within 33 x := by
  intro x hx
  obtain ⟨i, hi, rfl⟩ := Vector.mem_iff_getElem.mp (Vector.mem_toList_iff.mp hx)
  rw [Vector.getElem_zipWith, Vector.getElem_zipWith]
  exact (h i hi).within_normalized hv

theorem within_covariance (hadd : add.IsLawful) (i j : Fin 6) :
    Within 194 ((covariance add (PcaModel.normalized samples)).entry i j) := by
  have hentry : (covariance add (PcaModel.normalized samples)).entry i j =
      add ((PcaModel.normalized samples).map fun z => (z[i], z[j])) /
        Float.ofNat (PcaModel.normalized samples).length := Square.entry_ofFn _ i j
  have hlength : (PcaModel.normalized samples).length = samples.length := by
    simp [PcaModel.normalized, centered]
  have hpairs : ∀ p ∈ (PcaModel.normalized samples).map fun z => (z[i], z[j]),
      Within 33 p.1 ∧ Within 33 p.2 := by
    intro p hp
    obtain ⟨z, hz, rfl⟩ := List.mem_map.mp hp
    obtain ⟨w, hw, rfl⟩ := List.mem_map.mp hz
    obtain ⟨v, hv, rfl⟩ := List.mem_map.mp hw
    have hentries (k : Fin 6) := h.within_normalized hv _
      (Vector.mem_toList_iff.mpr (Vector.getElem_mem k.isLt))
    exact ⟨hentries i, hentries j⟩
  have hcounted := (h 0 (by norm_num)).counted
  have hsum := (hadd _).within hpairs (by norm_num) (by norm_num) (by rwa [List.length_map, hlength])
  rw [hentry, hlength]
  exact hsum.div (h 0 (by norm_num)).atLeast_count (by norm_num) (by norm_num)

/-- **What a fit finds has a value.** -/
theorem within_eigenpairs (hadd : add.IsLawful) :
    ∀ p ∈ unsortedEigenpairs (PcaModel.form add samples), ∀ x ∈ p.1 :: p.2, Within 248 x := by
  have hform := within_diagonalize (h.within_covariance hadd)
  intro p hp x hx
  obtain ⟨i, -, rfl⟩ := List.mem_map.mp hp
  rcases List.mem_cons.mp hx with rfl | hx
  · exact (hform i i).1
  · obtain ⟨j, -, rfl⟩ := List.mem_map.mp hx
    exact (hform j i).2

/-- **Two samples are enough for a model** of every rank. -/
theorem exists_fit_eq_ok (hadd : add.IsLawful) (hmany : 2 ≤ samples.length) (rank : ℕ) :
    ∃ m, PcaModel.fit add samples rank = .ok m := by
  refine PcaModel.exists_fit_eq_ok hmany (List.forall_mem_append.mpr ⟨fun x hx => ?_, fun x hx => ?_⟩)
    (fun p hp x hx => (h.within_eigenpairs hadd p hp x hx).finite) rank
  · obtain ⟨i, hi, rfl⟩ := Vector.mem_iff_getElem.mp (Vector.mem_toList_iff.mp hx)
    exact (h i hi).isFinite_mean
  · obtain ⟨i, hi, rfl⟩ := Vector.mem_iff_getElem.mp (Vector.mem_toList_iff.mp hx)
    exact (h i hi).scale

/-- **The scores of the samples are finite.** -/
theorem isFinite_score (hadd : add.IsLawful) {rank : ℕ} {m : PcaModel}
    (hfit : PcaModel.fit add samples rank = .ok m) {v : Features} (hv : v ∈ samples) :
    (m.score v.toList).isFinite = true := by
  obtain ⟨-, rfl⟩ := PcaModel.fit_spec hfit
  have hnormalize : (PcaModel.candidate add samples rank).normalize v.toList =
      (Vector.zipWith (· / ·) (Vector.zipWith (· - ·) v (means samples))
        (PcaModel.scaling samples)).toList := by
    rw [Vector.toList_zipWith, Vector.toList_zipWith]
    rfl
  have hkept {p : Float × List Float} (hp : p ∈ PcaModel.kept add samples rank) :=
    h.within_eigenpairs hadd p
      ((perm_eigenpairs _).mem_iff.mp (PcaModel.mem_order_of_mem_kept hp))
  rw [Pca.score, hnormalize]
  refine Pca.isFinite_scoreNormalized (h.within_normalized hv) ?_ ?_
  · exact List.forall_mem_map.mpr fun p hp x hx => hkept hp x (List.mem_cons_of_mem _ hx)
  · exact List.forall_mem_map.mpr fun p hp =>
      atLeast_of_lt (atLeast_cutoff _) (PcaModel.lt_of_mem_kept hp)

end IsTrainable

end TrafficWatch
