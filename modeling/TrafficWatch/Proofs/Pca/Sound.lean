import TrafficWatch.Pca.Model
import TrafficWatch.Proofs.Double.Sign
import TrafficWatch.Proofs.Sequence

/-!
# Pca — Sound

What the check of a model finds out.  A model passes it exactly if its lists fit each other, its
numbers are finite, and what it divides by is positive (`PcaModel.fault?_eq_none`).  In a score a list
that is too long would be cut and a division by zero would go unnoticed; `Pca.score?` fails on either,
and for a sound model it is the score (`PcaModel.IsSound.score?_eq`).
-/

namespace TrafficWatch

/-! ### Scores in which nothing is lost -/

section Score

variable {α β γ : Type}

/-- Two lists item by item, if neither is longer. -/
def zipAll? (f : α → β → γ) (as : List α) (bs : List β) : Option (List γ) :=
  if as.length = bs.length then some (List.zipWith f as bs) else none

theorem zipAll?_eq (f : α → β → γ) {as : List α} {bs : List β} (h : as.length = bs.length) :
    zipAll? f as bs = some (List.zipWith f as bs) :=
  if_pos h

variable [Scalar α]

/-- The quotient, unless something is divided by zero. -/
def divide? (x y : α) : Option α :=
  if Scalar.isZero y then none else some (x / y)

/-- The quotients of two lists, if neither is longer and nothing is divided by zero. -/
def divideAll? (xs ys : List α) : Option (List α) := do
  let pairs ← zipAll? Prod.mk xs ys
  pairs.mapM (Function.uncurry divide?)

theorem divideAll?_eq {xs ys : List α} (hlength : xs.length = ys.length)
    (hys : ∀ y ∈ ys, Scalar.isZero y = false) :
    divideAll? xs ys = some (List.zipWith (· / ·) xs ys) := by
  rw [divideAll?, zipAll?_eq Prod.mk hlength, Option.bind_eq_bind, Option.bind_some,
    ← List.zip_eq_zipWith, ← List.map_uncurry_zip_eq_zipWith]
  refine mapM_eq_some fun (x, y) hp => ?_
  change divide? x y = _
  rw [divide?, hys y (List.of_mem_zip hp).2]
  rfl

namespace Pca

/-- The squared projection on a component, if neither list is longer. -/
def square? (z component : List α) : Option α := do
  let products ← zipAll? (· * ·) component z
  return Scalar.sum products * Scalar.sum products

/-- The score of a vector, if no list is longer than it should be and nothing is divided by zero. -/
def score? (m : Pca α) (v : List α) : Option α := do
  let relative ← zipAll? (· - ·) v m.means
  let z ← divideAll? relative m.scales
  let squares ← m.components.mapM (square? z)
  let along ← divideAll? squares m.eigenvalues
  return Scalar.sum along + Scalar.positivePart (Scalar.dot z z - Scalar.sum squares)

/-- The squared projections on the components. -/
def squares (m : Pca α) (z : List α) : List α :=
  m.components.map fun component => Scalar.dot component z * Scalar.dot component z

theorem projections_eq (m : Pca α) (z : List α) :
    m.projections z = List.zip (m.squares z) m.eigenvalues := by
  rw [projections, squares, List.zip_map_left, List.zip_eq_zipWith, List.map_zipWith]
  rfl

theorem scoreNormalized_eq {m : Pca α} (hcounts : m.components.length = m.eigenvalues.length)
    (z : List α) :
    m.scoreNormalized z = Scalar.sum (List.zipWith (· / ·) (m.squares z) m.eigenvalues) +
      Scalar.positivePart (Scalar.dot z z - Scalar.sum (m.squares z)) := by
  have hlength : (m.squares z).length = m.eigenvalues.length := by
    rw [squares, List.length_map, hcounts]
  rw [scoreNormalized, projections_eq]
  simp only
  rw [List.map_fst_zip hlength.le, ← List.map_uncurry_zip_eq_zipWith]
  rfl

/-- Where all lengths agree and nothing that is divided by is zero, nothing is lost in a score. -/
theorem score?_eq {m : Pca α} {v : List α} (hmeans : v.length = m.means.length)
    (hscales : m.means.length = m.scales.length)
    (hcomponents : ∀ c ∈ m.components, c.length = m.scales.length)
    (hcounts : m.components.length = m.eigenvalues.length)
    (hzero : ∀ x ∈ m.scales ++ m.eigenvalues, Scalar.isZero x = false) :
    m.score? v = some (m.score v) := by
  obtain ⟨hscale, heigenvalue⟩ := List.forall_mem_append.mp hzero
  have hrelative : (List.zipWith (· - ·) v m.means).length = m.scales.length := by
    rw [List.length_zipWith, hmeans, Nat.min_self, hscales]
  have hnormalized : (m.normalize v).length = m.scales.length := by
    rw [normalize, List.length_zipWith, hrelative, Nat.min_self]
  have hsquares : m.components.mapM (square? (m.normalize v)) = some (m.squares (m.normalize v)) :=
    mapM_eq_some fun c hc => by
      rw [square?, zipAll?_eq _ ((hcomponents c hc).trans hnormalized.symm)]
      rfl
  have hcount : (m.squares (m.normalize v)).length = m.eigenvalues.length := by
    rw [squares, List.length_map, hcounts]
  simp only [score?, zipAll?_eq _ hmeans, divideAll?_eq hrelative hscale, Option.bind_eq_bind,
    Option.bind_some]
  change (m.components.mapM (square? (m.normalize v))).bind _ = _
  rw [hsquares, Option.bind_some, divideAll?_eq hcount heigenvalue, score, scoreNormalized_eq hcounts]
  rfl

end Pca

end Score

/-! ### Models -/

namespace PcaModel

/-- A model whose lists fit each other, whose numbers are finite, and with positive numbers where it
divides. -/
structure IsSound (m : PcaModel) : Prop where
  means : m.means.length = dimension
  scales : m.scales.length = dimension
  counts : m.components.length = m.eigenvalues.length
  rank : m.components.length ≤ dimension
  components : ∀ c ∈ m.components, c.length = dimension
  finite : ∀ x ∈ numbers m, x.isFinite = true
  positive : ∀ x ∈ m.scales ++ m.eigenvalues, 0.0 < x

/-- For finite numbers not to be at most zero is to be positive. -/
theorem any_le_zero {xs : List Float} (h : ∀ x ∈ xs, x.isFinite = true) :
    ¬ xs.any (· ≤ 0.0) = true ↔ ∀ x ∈ xs, 0.0 < x := by
  have hzero : Float.isNaN 0.0 = false := rfl
  rw [Bool.not_eq_true, List.any_eq_false]
  refine forall₂_congr fun x hx => ?_
  rw [decide_eq_true_iff, Double.le_iff_not_lt (Double.isNaN_of_isFinite (h x hx)) hzero, not_not]

theorem mem_numbers {m : PcaModel} {x : Float} (h : x ∈ m.scales ++ m.eigenvalues) :
    x ∈ numbers m := by
  rw [numbers, List.append_assoc m.means]
  exact List.mem_append_left _ (List.mem_append_right _ h)

/-- **A model passes its check exactly if it is sound.** -/
theorem fault?_eq_none {m : PcaModel} : fault? m = none ↔ m.IsSound := by
  have hlengths : ¬ m.components.any (fun c => c.length ≠ dimension) = true ↔
      ∀ c ∈ m.components, c.length = dimension := by
    simp
  have hfinite : ¬ (!(numbers m).all Float.isFinite) = true ↔ ∀ x ∈ numbers m, x.isFinite = true := by
    simp
  rw [fault?, ite_eq_none, ite_eq_none, ite_eq_none, ite_eq_none, ite_eq_none, ite_eq_none, hlengths,
    hfinite, ← List.any_append]
  constructor
  · rintro ⟨hsizes, hcounts, hrank, hcomponents, hfinite, hpositive, -⟩
    rw [not_or, not_not, not_not] at hsizes
    exact ⟨hsizes.1, hsizes.2, not_not.mp hcounts, Nat.not_lt.mp hrank, hcomponents, hfinite,
      (any_le_zero fun x hx => hfinite x (mem_numbers hx)).mp hpositive⟩
  · rintro ⟨hmeans, hscales, hcounts, hrank, hcomponents, hfinite, hpositive⟩
    exact ⟨fun h => h.elim (· hmeans) (· hscales), fun h => h hcounts, Nat.not_lt.mpr hrank,
      hcomponents, hfinite, (any_le_zero fun x hx => hfinite x (mem_numbers hx)).mpr hpositive, rfl⟩

/-- **With a sound model nothing is lost in a score.** -/
theorem IsSound.score?_eq {m : PcaModel} (h : m.IsSound) (v : Features) :
    m.score? v.toList = some (m.score v.toList) := by
  refine Pca.score?_eq ?_ ?_ ?_ h.counts fun x hx => ?_
  · rw [Vector.length_toList, h.means]
    rfl
  · rw [h.means, h.scales]
  · intro c hc
    rw [h.components c hc, h.scales]
  · exact Double.beq_of_lt (h.positive x hx)

/-- A scale of zero is not passed over, nor is a list that is too long. -/
example : (Pca.score? (⟨[1.0], [0.0], [], [], 0⟩ : PcaModel) [2.0]).isNone ∧
    (Pca.score? (⟨[1.0], [1.0], [], [3.0], 0⟩ : PcaModel) [2.0]).isNone := by decide

end PcaModel

end TrafficWatch
