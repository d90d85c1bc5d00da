import TrafficWatch.Proofs.Baseline.Quantile

/-!
# Baseline — Order statistic

A quantile is the value that has its place in order (`quantileBy_isOrderStatistic`).  That is said
without sorting, by counting the values up to it and those from it on: of sorted values the first ones
are not greater than the one at a place and the others not smaller (`lt_countP_le`, `le_countP_ge`).
From the counts alone it follows that a quantile does not fall when values grow
(`place_le_of_dominates`).  Places tell all doubles apart, also those that are not a number
(`keyOfBits_injective`), so the quantile does not depend on the order of the values
(`quantileBy_of_perm`).
-/

namespace TrafficWatch

/-! ### Places -/

namespace TotalOrder

/-- **Every double has a place of its own.** -/
theorem keyOfBits_injective : Function.Injective keyOfBits := by
  intro x y h
  have hx := x.toNat_lt
  have hy := y.toNat_lt
  change (if x.toNat < 2 ^ 63 then (x.toNat : Int) else 2 ^ 63 - 1 - x.toNat) =
    if y.toNat < 2 ^ 63 then (y.toNat : Int) else 2 ^ 63 - 1 - y.toNat at h
  refine UInt64.toNat_inj.mp ?_
  split at h <;> split at h <;> omega

end TotalOrder

/-! ### Values in order -/

section

variable {α : Type} {place : α → Int}

/-- Of values in order, those up to a place are not greater than the one there. -/
theorem lt_countP_le {sorted : List α} (h : sorted.Pairwise fun x y => place x ≤ place y) {k : Nat}
    (hk : k < sorted.length) : k < sorted.countP fun y => decide (place y ≤ place sorted[k]) := by
  have hall : (sorted.take (k + 1)).countP (fun y => decide (place y ≤ place sorted[k])) = k + 1 := by
    rw [List.countP_eq_length.mpr fun y hy => ?_, List.length_take]
    · omega
    · obtain ⟨i, hi, rfl⟩ := List.mem_take_iff_getElem.mp hy
      rcases Nat.lt_or_ge i k with hik | hik
      · exact decide_eq_true (List.pairwise_iff_getElem.mp h i k _ hk hik)
      · have : i = k := by omega
        subst this
        exact decide_eq_true le_rfl
  have hle := (List.take_sublist (k + 1) sorted).countP_le
    (p := fun y => decide (place y ≤ place sorted[k]))
  omega

/-- Of values in order, those from a place on are not smaller than the one there. -/
theorem le_countP_ge {sorted : List α} (h : sorted.Pairwise fun x y => place x ≤ place y) {k : Nat}
    (hk : k < sorted.length) :
    sorted.length - k ≤ sorted.countP fun y => decide (place sorted[k] ≤ place y) := by
  have hall : (sorted.drop k).countP (fun y => decide (place sorted[k] ≤ place y)) =
      sorted.length - k := by
    rw [List.countP_eq_length.mpr fun y hy => ?_, List.length_drop]
    obtain ⟨i, hi, rfl⟩ := List.mem_drop_iff_getElem.mp hy
    rcases Nat.eq_zero_or_pos i with rfl | hpos
    · exact decide_eq_true le_rfl
    · exact decide_eq_true (List.pairwise_iff_getElem.mp h k _ hk _ (by omega))
  have hle := (List.drop_sublist k sorted).countP_le
    (p := fun y => decide (place sorted[k] ≤ place y))
  omega

/-- **A quantile** is one of the values; as many are not greater as its place demands, and as many are
not smaller. -/
theorem quantileBy_isOrderStatistic {values : List α} {q : Float} {x : α}
    (h : quantileBy place values q = some x) :
    x ∈ values ∧
      quantilePlace q (values.length - 1) < values.countP (fun y => decide (place y ≤ place x)) ∧
      values.length - quantilePlace q (values.length - 1) ≤
        values.countP fun y => decide (place x ≤ place y) := by
  have hperm := TotalOrder.perm_sortBy place values
  have hsorted := TotalOrder.pairwise_sortBy place values
  rw [quantileBy_eq_getElem?] at h
  generalize quantilePlace q (values.length - 1) = k at h ⊢
  obtain ⟨hk, rfl⟩ := List.getElem?_eq_some_iff.mp h
  refine ⟨hperm.mem_iff.mp (List.getElem_mem hk), ?_, ?_⟩
  · rw [← hperm.countP_eq]
    exact lt_countP_le hsorted hk
  · rw [← hperm.countP_eq, ← hperm.length_eq]
    exact le_countP_ge hsorted hk

/-- **A quantile does not depend on the order of the values.** -/
theorem quantileBy_of_perm (hplace : Function.Injective place) {values other : List α}
    (h : values.Perm other) (q : Float) : quantileBy place other q = quantileBy place values q := by
  have hsorted : TotalOrder.sortBy place other = TotalOrder.sortBy place values := by
    refine List.Perm.eq_of_pairwise (fun x y _ _ hxy hyx => hplace (Int.le_antisymm hxy hyx))
      (TotalOrder.pairwise_sortBy place other) (TotalOrder.pairwise_sortBy place values) ?_
    exact (TotalOrder.perm_sortBy place other).trans
      (h.symm.trans (TotalOrder.perm_sortBy place values).symm)
  rw [quantileBy, quantileBy, hsorted]

/-! ### Values that grow -/

/-- Of values that have grown, not more are below a bound. -/
theorem countP_le_of_dominates {values greater : List α}
    (h : List.Forall₂ (fun x y => place x ≤ place y) values greater) (bound : Int) :
    greater.countP (fun y => decide (place y ≤ bound)) ≤
      values.countP fun y => decide (place y ≤ bound) := by
  induction h with
  | nil => rfl
  | cons hxy _ ih =>
      rw [List.countP_cons, List.countP_cons]
      simp only [decide_eq_true_eq]
      split <;> split <;> omega

theorem countP_lt_add_countP_ge (place : α → Int) (values : List α) (bound : Int) :
    values.countP (fun y => decide (place y < bound)) +
      values.countP (fun y => decide (bound ≤ place y)) = values.length := by
  rw [List.length_eq_countP_add_countP fun y => decide (place y < bound)]
  congr 1
  exact List.countP_congr fun y _ => by simp

/-- **A quantile does not fall when values grow.** -/
theorem place_le_of_dominates {values greater : List α} {q : Float} {x y : α}
    (h : List.Forall₂ (fun x y => place x ≤ place y) values greater)
    (hx : quantileBy place values q = some x) (hy : quantileBy place greater q = some y) :
    place x ≤ place y := by
  obtain ⟨-, -, hge⟩ := quantileBy_isOrderStatistic hx
  obtain ⟨-, hle, -⟩ := quantileBy_isOrderStatistic hy
  rw [← h.length_eq] at hle
  by_contra hlt
  -- otherwise too many of the values would be before their own quantile
  have hgrown := countP_le_of_dominates h (place y)
  have hbefore : values.countP (fun z => decide (place z ≤ place y)) ≤
      values.countP fun z => decide (place z < place x) :=
    List.countP_mono_left fun z _ hz => by
      rw [decide_eq_true_iff] at hz ⊢
      omega
  have hall := countP_lt_add_countP_ge place values (place x)
  omega

/-- Values that are told by their places give the quantile of what they stand for. -/
theorem quantileBy_map {β : Type} (f : β → α) (values : List β) (q : Float) :
    quantileBy place (values.map f) q = (quantileBy (fun x => place (f x)) values q).map f := by
  have hsort : (TotalOrder.sortBy (fun x => place (f x)) values).map f =
      TotalOrder.sortBy place (values.map f) :=
    List.map_mergeSort fun _ _ _ _ => rfl
  rw [quantileBy, quantileBy, quantileOfSorted, quantileOfSorted, ← hsort, List.length_map,
    List.getElem?_map]

end

/-- The quantile of doubles is that of their bits. -/
theorem quantile_eq_ofBits (values : List Float) (q : Float) :
    quantile values q =
      (quantileBy TotalOrder.keyOfBits (values.map Float.toBits) q).map Float.ofBits := by
  rw [quantileBy_map, Option.map_map]
  have hbits : Float.ofBits ∘ Float.toBits = id := funext Float.ofBits_toBits
  rw [hbits, Option.map_id]
  rfl

/-- **A quantile is an order statistic.** Take any doubles, given by their bits, and any share, be it a
number between zero and one or not.  There is a quantile exactly if there are values.  It is one of
them; so many are not greater as its place demands and so many are not smaller, in the total order, and
the place, which is never beyond the last one, is the whole part of the share of the last place.  The
quantile is the same bit for bit in whichever order the values come, it does not fall when values are
replaced by greater ones, and the quantile of doubles is the one of their bits. -/
theorem quantile_isOrderStatistic (values : List UInt64) (q : Float) :
    (quantileBy TotalOrder.keyOfBits values q = none ↔ values = []) ∧
    let n := values.length
    let k := quantilePlace q (n - 1)
    let place := TotalOrder.keyOfBits
    let result := quantileBy place values q
    (n ≤ 2 ^ 64 → k = min ⌊Double.value (clampShare q * Float.ofNat (n - 1))⌋₊ (n - 1)) ∧
    (∀ x, result = some x → k < n ∧ x ∈ values ∧
      k + 1 ≤ values.countP (fun y => decide (place y ≤ place x)) ∧
      n - k ≤ values.countP fun y => decide (place x ≤ place y)) ∧
    (∀ other, values.Perm other → quantileBy place other q = result) ∧
    (∀ greater x y, List.Forall₂ (fun x y => place x ≤ place y) values greater → result = some x →
      quantileBy place greater q = some y → place x ≤ place y) ∧
    (∀ doubles : List Float, doubles.map Float.toBits = values →
      quantile doubles q = result.map Float.ofBits) := by
  refine ⟨quantileBy_eq_none, ?_⟩
  intro n k place result
  refine ⟨fun h => quantilePlace_eq_floor_clampShare q (by omega), fun x hx => ?_,
    fun other h => quantileBy_of_perm TotalOrder.keyOfBits_injective h q,
    fun greater x y h hx hy => place_le_of_dominates h hx hy, fun doubles h => ?_⟩
  · obtain ⟨hmem, hle, hge⟩ := quantileBy_isOrderStatistic hx
    have hpos := List.length_pos_of_mem hmem
    have hplace := quantilePlace_le q (n - 1)
    exact ⟨by omega, hmem, hle, hge⟩
  · rw [quantile_eq_ofBits, h]

/-- Two, minus what is not a number, minus zero and zero: halfway is minus zero, in whichever order they
come, and with zero in the place of minus zero it is zero. -/
theorem quantile_isOrderStatistic_zeros :
    let values : List UInt64 := [0x4000000000000000, 0xFFF8000000000000, 0x8000000000000000, 0]
    let greater : List UInt64 := [0x4000000000000000, 0xFFF8000000000000, 0, 0]
    let place := TotalOrder.keyOfBits
    quantileBy place values 0.5 = some 0x8000000000000000 ∧
      quantileBy place values.reverse 0.5 = some 0x8000000000000000 ∧
      ∃ y, quantileBy place greater 0.5 = some y ∧ place 0x8000000000000000 ≤ place y := by
  intro values greater place
  obtain ⟨hnone, -, hrank, hperm, hgrow, -⟩ := quantile_isOrderStatistic values 0.5
  obtain ⟨x, hx⟩ := Option.ne_none_iff_exists'.mp (mt hnone.mp (List.cons_ne_nil _ _))
  obtain ⟨-, hmem, hle, hge⟩ := hrank x hx
  have hplace : quantilePlace 0.5 (values.length - 1) = 1 := by decide +kernel
  rw [hplace] at hle hge
  -- of the four, only minus zero has two up to it and three from it on
  have hzero : x = 0x8000000000000000 := by
    simp only [values, List.mem_cons, List.not_mem_nil, or_false] at hmem
    rcases hmem with rfl | rfl | rfl | rfl
    · exact absurd hge (by decide)
    · exact absurd hle (by decide)
    · rfl
    · exact absurd hge (by decide)
  subst hzero
  obtain ⟨y, hy⟩ := Option.ne_none_iff_exists'.mp
    (mt (quantile_isOrderStatistic greater 0.5).1.mp (List.cons_ne_nil _ _))
  have hgrown : List.Forall₂ (fun x y => place x ≤ place y) values greater := by
    simp only [values, greater, List.forall₂_cons, List.forall₂_nil_right_iff]
    decide
  exact ⟨hx, (hperm _ values.reverse_perm.symm).trans hx, y, hy, hgrow greater _ y hgrown hx hy⟩

end TrafficWatch
