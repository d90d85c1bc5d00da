import TrafficWatch.Pca.Fit
import TrafficWatch.Proofs.Baseline.Quantile
import TrafficWatch.Proofs.Double.Compare
import TrafficWatch.Proofs.Pca.Text

/-!
# Pca — Fit

Models of the same samples.  A fit finds all pairs of an eigenvalue and its eigenvector first, the
largest eigenvalue in front (`PcaModel.order`), and the rank only decides how many of them may stay
(`PcaModel.kept`).  So a model of a smaller rank is the beginning of one of a greater rank
(`PcaModel.kept_prefix`), and a fit fails for its samples or for numbers that are not finite, but
never because of its shape or of a sign (`PcaModel.fit_eq_ok`).  All of this is so in whatever order the
products of a covariance are added up.
-/

namespace TrafficWatch

/-! ### The order of eigenvalues -/

section Order

variable (d : Diagonalization Float 6)

/-- The eigenvalues with their eigenvectors, as they stand in the matrix. -/
def unsortedEigenpairs : List (Float × List Float) :=
  (List.finRange 6).map fun i => (d.matrix.entry i i, d.basis.column i)

theorem eigenpairs_eq_sortBy :
    eigenpairs d = TotalOrder.sortBy (fun p => -TotalOrder.key p.1) (unsortedEigenpairs d) := by
  simp only [TotalOrder.sortBy, Int.neg_le_neg_iff]
  rfl

theorem perm_eigenpairs : (eigenpairs d).Perm (unsortedEigenpairs d) := by
  rw [eigenpairs_eq_sortBy]
  exact TotalOrder.perm_sortBy _ _

theorem length_eigenpairs : (eigenpairs d).length = dimension :=
  (perm_eigenpairs d).length_eq

/-- **Eigenvalues descend in the total order.** -/
theorem pairwise_eigenpairs :
    (eigenpairs d).Pairwise fun a b => TotalOrder.key b.1 ≤ TotalOrder.key a.1 := by
  rw [eigenpairs_eq_sortBy]
  exact (TotalOrder.pairwise_sortBy (fun p : Float × List Float => -TotalOrder.key p.1) _).imp
    Int.neg_le_neg_iff.mp

end Order

/-! ### Positive numbers -/

/-- A scale is positive, whatever the deviation. -/
theorem scaleOf_pos (deviation : Float) : 0.0 < scaleOf deviation := by
  rw [scaleOf]
  split_ifs with h
  · exact Double.zero_lt_of_le (by decide) (Double.le_of_lt h)
  · decide

/-- The larger of a number and a positive one is positive. -/
theorem larger_pos {x y : Float} (hy : 0.0 < y) (hnumber : y.isNaN = false) : 0.0 < larger x y := by
  rw [larger]
  split_ifs with hnan hlt
  · exact hy
  · exact hy
  · exact Double.zero_lt_of_le hy ((Double.le_iff_not_lt hnumber (by simpa using hnan)).mpr hlt)

theorem cutoff_pos (eigenvalues : List Float) : 0.0 < cutoff eigenvalues :=
  larger_pos (by decide) (by decide)

namespace PcaModel

/-! ### What a fit finds before it cuts -/

section Fit

variable (add : ProductSum) (samples : List Features)

/-- The scale of each feature of samples. -/
def scaling : Features :=
  scalesOf (centered (means samples) samples)

/-- The samples relative to their means, in units of the scales. -/
def normalized : List Features :=
  (centered (means samples) samples).map fun v => Vector.zipWith (· / ·) v (scaling samples)

/-- The diagonal form of the covariance of samples. -/
def form : Diagonalization Float 6 :=
  diagonalize (covariance add (normalized samples))

/-- All pairs of an eigenvalue and its eigenvector, the largest eigenvalue first. -/
def order : List (Float × List Float) :=
  eigenpairs (form add samples)

/-- The eigenvalue that a component of samples has to exceed. -/
def least : Float :=
  cutoff (form add samples).matrix.diagonal

/-- The pairs that a model of the given rank consists of. -/
def kept (rank : Nat) : List (Float × List Float) :=
  ((order add samples).take (min (max rank 1) dimension)).filter fun p => least add samples < p.1

/-- What a fit checks in the end. -/
def candidate (rank : Nat) : PcaModel where
  means := (means samples).toList
  scales := (scaling samples).toList
  components := (kept add samples rank).map (·.2)
  eigenvalues := (kept add samples rank).map (·.1)
  sampleCount := samples.length

theorem fit_eq (rank : Nat) :
    fit add samples rank =
      if samples.length < 2 then .error (.tooFewSamples samples.length)
      else if !(form add samples).matrix.diagonal.all Float.isFinite then .error .diverged
      else checked (candidate add samples rank) :=
  rfl

variable {add samples}

/-- What a fit gives is what it found, and passes the check. -/
theorem fit_spec {rank : Nat} {m : PcaModel} (h : fit add samples rank = .ok m) :
    fault? m = none ∧ m = candidate add samples rank := by
  rw [fit_eq] at h
  split_ifs at h
  obtain ⟨hfault, rfl⟩ := checked_eq_ok.mp h
  exact ⟨hfault, rfl⟩

theorem mem_order_of_mem_kept {rank : Nat} {p : Float × List Float}
    (h : p ∈ kept add samples rank) :
    p ∈ order add samples :=
  List.mem_of_mem_take (List.mem_filter.mp h).1

/-- An eigenvector has a number for each feature. -/
theorem length_of_mem_kept {rank : Nat} {p : Float × List Float} (h : p ∈ kept add samples rank) :
    p.2.length = dimension := by
  have hp := (perm_eigenpairs _).mem_iff.mp (mem_order_of_mem_kept h)
  obtain ⟨i, -, rfl⟩ := List.mem_map.mp hp
  rw [Square.column, List.length_map, List.length_finRange]
  rfl

theorem lt_of_mem_kept {rank : Nat} {p : Float × List Float} (h : p ∈ kept add samples rank) :
    least add samples < p.1 :=
  of_decide_eq_true (List.mem_filter.mp h).2

theorem length_kept_le (add : ProductSum) (samples : List Features) (rank : Nat) :
    (kept add samples rank).length ≤ min (max rank 1) dimension :=
  (List.length_filter_le _ _).trans (List.length_take_le _ _)

theorem scaling_pos (samples : List Features) : ∀ x ∈ (scaling samples).toList, 0.0 < x := by
  intro x hx
  rw [scaling, scalesOf, Vector.toList_map] at hx
  obtain ⟨_, -, rfl⟩ := List.mem_map.mp hx
  exact scaleOf_pos _

/-- The shape of what a fit finds is that of a model, and scales and eigenvalues are positive. -/
theorem isSound_candidate {rank : Nat}
    (hfinite : ∀ x ∈ numbers (candidate add samples rank), x.isFinite = true) :
    (candidate add samples rank).IsSound where
  means := Vector.length_toList
  scales := Vector.length_toList
  counts := by rw [candidate, List.length_map, List.length_map]
  rank := by
    rw [candidate, List.length_map]
    exact (length_kept_le add samples rank).trans (Nat.min_le_right _ _)
  components := List.forall_mem_map.mpr fun p hp => length_of_mem_kept hp
  finite := hfinite
  positive := List.forall_mem_append.mpr ⟨scaling_pos samples,
    List.forall_mem_map.mpr fun p hp =>
      Double.zero_lt_of_le (cutoff_pos _) (Double.le_of_lt (lt_of_mem_kept hp))⟩

/-- **A fit succeeds exactly if there are samples enough and all numbers are finite.** -/
theorem fit_eq_ok {rank : Nat} {m : PcaModel} :
    fit add samples rank = .ok m ↔
      m = candidate add samples rank ∧ 2 ≤ samples.length ∧
        (form add samples).matrix.diagonal.all Float.isFinite = true ∧
        ∀ x ∈ numbers m, x.isFinite = true := by
  rw [fit_eq]
  constructor
  · intro h
    split_ifs at h with hfew hdiverged
    obtain ⟨hfault, rfl⟩ := checked_eq_ok.mp h
    exact ⟨rfl, not_lt.mp hfew, by simpa using hdiverged, (fault?_eq_none.mp hfault).finite⟩
  · rintro ⟨rfl, hmany, hfinite, hnumbers⟩
    rw [if_neg (not_lt.mpr hmany), hfinite]
    exact checked_eq_ok.mpr ⟨fault?_eq_none.mpr (isSound_candidate hnumbers), rfl⟩

/-- Where all numbers that were found are finite there is a model of every rank. -/
theorem exists_fit_eq_ok (hmany : 2 ≤ samples.length)
    (hcenter : ∀ x ∈ (means samples).toList ++ (scaling samples).toList, x.isFinite = true)
    (hpairs : ∀ p ∈ unsortedEigenpairs (form add samples),
      ∀ x ∈ p.1 :: p.2, x.isFinite = true)
    (rank : Nat) : ∃ m, fit add samples rank = .ok m := by
  have hdiagonal : (form add samples).matrix.diagonal =
      (unsortedEigenpairs (form add samples)).map (·.1) := by
    rw [unsortedEigenpairs, List.map_map]
    rfl
  have hkept (p : Float × List Float) (hp : p ∈ kept add samples rank) :
      ∀ x ∈ p.1 :: p.2, x.isFinite = true :=
    hpairs p ((perm_eigenpairs _).mem_iff.mp (mem_order_of_mem_kept hp))
  refine ⟨_, fit_eq_ok.mpr ⟨rfl, hmany, ?_, ?_⟩⟩
  · rw [hdiagonal, List.all_map, List.all_eq_true]
    exact fun p hp => hpairs p hp p.1 List.mem_cons_self
  · have heigenvalues : ∀ x ∈ (candidate add samples rank).eigenvalues, x.isFinite = true :=
      List.forall_mem_map.mpr fun p hp => hkept p hp p.1 List.mem_cons_self
    have hcomponents :
        ∀ x ∈ (candidate add samples rank).components.flatten, x.isFinite = true := by
      intro x hx
      obtain ⟨c, hc, hx⟩ := List.mem_flatten.mp hx
      obtain ⟨p, hp, rfl⟩ := List.mem_map.mp hc
      exact hkept p hp x (List.mem_cons_of_mem _ hx)
    rw [numbers]
    exact List.forall_mem_append.mpr
      ⟨List.forall_mem_append.mpr ⟨hcenter, heigenvalues⟩, hcomponents⟩

/-- **A smaller rank keeps the beginning of what a greater one keeps.** -/
theorem kept_prefix (add : ProductSum) (samples : List Features) {rank larger : Nat}
    (h : rank ≤ larger) : kept add samples rank <+: kept add samples larger :=
  (List.take_prefix_take_left (by omega)).filter _

/-- Beyond the number of features the rank has no effect. -/
theorem kept_eq_of_dimension_le (add : ProductSum) (samples : List Features) {rank : Nat}
    (h : dimension ≤ rank) :
    kept add samples rank = (order add samples).filter fun p => least add samples < p.1 := by
  have hall : (order add samples).length ≤ dimension := (length_eigenpairs _).le
  rw [kept, min_eq_right (h.trans (le_max_left rank 1)), List.take_of_length_le hall]

theorem pairwise_kept (add : ProductSum) (samples : List Features) (rank : Nat) :
    (kept add samples rank).Pairwise fun a b => TotalOrder.key b.1 ≤ TotalOrder.key a.1 :=
  ((pairwise_eigenpairs (form add samples)).sublist (List.take_sublist _ _)).sublist
    List.filter_sublist

/-- Beyond the number of features the rank has no effect on a fit. -/
theorem fit_congr (add : ProductSum) (samples : List Features) {rank other : Nat}
    (h : dimension ≤ rank) (hother : dimension ≤ other) :
    fit add samples rank = fit add samples other := by
  rw [fit_eq, fit_eq, candidate, candidate, kept_eq_of_dimension_le add samples h,
    kept_eq_of_dimension_le add samples hother]

/-- **The models of the same samples**, in whatever order products are added up.  Every one that is
fitted passes its check, counts the samples, and consists of at most as many components as its rank and
the number of features allow, with eigenvalues that descend.  They are what comes first in one order of
all eigenpairs, without those that do not exceed one cutoff, where neither order nor cutoff depends on
the rank.  So the model of a smaller rank has the means, the scales and the count of that of a greater
rank, and the beginnings of its lists; from the number of features on the rank has no effect.  Fewer
than two samples give no model. -/
theorem fit_consistent (add : ProductSum) (samples : List Features) :
    (∀ rank m, fit add samples rank = .ok m →
      fault? m = none ∧ m.sampleCount = samples.length ∧
      m.components.length ≤ min (max rank 1) 6 ∧
      m.eigenvalues.Pairwise (fun x y => TotalOrder.key y ≤ TotalOrder.key x)) ∧
    ((order add samples).Perm (unsortedEigenpairs (form add samples)) ∧
      (order add samples).Pairwise (fun a b => TotalOrder.key b.1 ≤ TotalOrder.key a.1) ∧
      ∀ rank m, fit add samples rank = .ok m →
        List.zip m.eigenvalues m.components =
          ((order add samples).take (min (max rank 1) 6)).filter fun p =>
            least add samples < p.1) ∧
    (∀ rank larger m m', rank ≤ larger →
      fit add samples rank = .ok m → fit add samples larger = .ok m' →
      m.means = m'.means ∧ m.scales = m'.scales ∧ m.sampleCount = m'.sampleCount ∧
      m.components <+: m'.components ∧ m.eigenvalues <+: m'.eigenvalues) ∧
    (∀ rank other, 6 ≤ rank → 6 ≤ other → fit add samples rank = fit add samples other) ∧
    (samples.length < 2 →
      ∀ rank, fit add samples rank = .error (.tooFewSamples samples.length)) := by
  refine ⟨fun rank m h => ?_, ⟨perm_eigenpairs _, pairwise_eigenpairs _, fun rank m h => ?_⟩,
    fun rank larger m m' hle h h' => ?_, fun rank other h hother => fit_congr add samples h hother,
    fun hfew rank => ?_⟩
  · obtain ⟨hfault, rfl⟩ := fit_spec h
    refine ⟨hfault, rfl, ?_, List.pairwise_map.mpr (pairwise_kept add samples rank)⟩
    rw [candidate, List.length_map]
    exact length_kept_le add samples rank
  · obtain ⟨-, rfl⟩ := fit_spec h
    exact List.zip_map'.trans (List.map_id _)
  · obtain ⟨-, rfl⟩ := fit_spec h
    obtain ⟨-, rfl⟩ := fit_spec h'
    have hprefix := kept_prefix add samples hle
    exact ⟨rfl, rfl, rfl, hprefix.map _, hprefix.map _⟩
  · rw [fit_eq, if_pos hfew]

end Fit

/-- A vector of features that differs from others in two of them only. -/
def twoFeatures (x y : Float) : Features :=
  #v[x, y, 0.0, 0.0, 5.0, 0.0]

/-- Samples two features of which vary together.  The greater eigenvalue is found in the second
place. -/
def correlated : List Features :=
  [twoFeatures 1.0 1.0, twoFeatures 1.0 1.0, twoFeatures 1.0 (-1.0), twoFeatures (-1.0) (-1.0),
    twoFeatures (-1.0) (-1.0), twoFeatures (-1.0) 1.0]

theorem exists_fit_correlated (rank : Nat) : ∃ m, fit .inOrder correlated rank = .ok m :=
  exists_fit_eq_ok (by decide) (by decide +kernel) (by decide +kernel) rank

theorem length_components_correlated {m : PcaModel} (h : fit .inOrder correlated 6 = .ok m) :
    m.components.length = 2 := by
  obtain ⟨-, rfl⟩ := fit_spec h
  have hkept := kept_eq_of_dimension_le .inOrder correlated (le_refl dimension)
  change ((kept .inOrder correlated dimension).map _).length = 2
  rw [hkept, List.length_map, ← List.countP_eq_length_filter, order, (perm_eigenpairs _).countP_eq]
  decide +kernel

theorem fit_consistent_correlated :
    ∃ m m', fit .inOrder correlated 1 = .ok m ∧ fit .inOrder correlated 6 = .ok m' ∧
      m.components.length ≤ 1 ∧ m'.components.length = 2 ∧
      m.components <+: m'.components ∧ m.eigenvalues <+: m'.eigenvalues ∧
      fit .inOrder correlated 7 = .ok m' := by
  obtain ⟨m, hm⟩ := exists_fit_correlated 1
  obtain ⟨m', hm'⟩ := exists_fit_correlated 6
  obtain ⟨hmodel, -, hprefix, hbeyond, -⟩ := fit_consistent .inOrder correlated
  obtain ⟨-, -, -, hcomponents, heigenvalues⟩ := hprefix 1 6 m m' (by decide) hm hm'
  exact ⟨m, m', hm, hm', (hmodel 1 m hm).2.2.1, length_components_correlated hm', hcomponents,
    heigenvalues, (hbeyond 7 6 (by decide) le_rfl).trans hm'⟩

end PcaModel

end TrafficWatch
