import TrafficWatch.Baseline.Quantile
import TrafficWatch.Proofs.Double.Order
import TrafficWatch.Proofs.Double.Value
import TrafficWatch.Settings.Validity

/-!
# Baseline — Quantile

How many values are beyond their quantile.  In the total order nothing up to the place of the quantile
is behind it, and what is greater as a number would be, so only the values after that place can be
greater (`countP_beyond_quantile`).  The place is the whole part of a product of doubles
(`quantilePlace_eq_floor`), and that of the whole share is the last one (`quantilePlace_one`).
-/

namespace TrafficWatch

/-! ### Sorting -/

namespace TotalOrder

section SortBy

variable {α : Type} (place : α → Int) (xs : List α)

theorem pairwise_sortBy : (sortBy place xs).Pairwise fun x y => place x ≤ place y := by
  have htrans (x y z : α) (hxy : decide (place x ≤ place y) = true)
      (hyz : decide (place y ≤ place z) = true) : decide (place x ≤ place z) = true :=
    decide_eq_true (Int.le_trans (of_decide_eq_true hxy) (of_decide_eq_true hyz))
  have htotal (x y : α) : (decide (place x ≤ place y) || decide (place y ≤ place x)) = true := by
    rw [Bool.or_eq_true]
    exact (Int.le_total (place x) (place y)).imp decide_eq_true decide_eq_true
  exact (List.pairwise_mergeSort htrans htotal xs).imp of_decide_eq_true

theorem perm_sortBy : (sortBy place xs).Perm xs :=
  List.mergeSort_perm xs _

theorem length_sortBy : (sortBy place xs).length = xs.length :=
  (perm_sortBy place xs).length_eq

end SortBy

theorem pairwise_sort (xs : List Float) : (sort xs).Pairwise fun x y => key x ≤ key y :=
  pairwise_sortBy key xs

theorem perm_sort (xs : List Float) : (sort xs).Perm xs :=
  perm_sortBy key xs

/-- Of values in order, only those behind a place are greater than the one at that place. -/
theorem countP_sorted {sorted : List Float} (h : sorted.Pairwise fun x y => key x ≤ key y) {k : Nat}
    {t : Float} (ht : sorted[k]? = some t) :
    sorted.countP (fun x => decide (t < x)) ≤ sorted.length - 1 - k := by
  obtain ⟨hk, rfl⟩ := List.getElem?_eq_some_iff.mp ht
  have hfront : (sorted.take (k + 1)).countP (fun x => decide (sorted[k] < x)) = 0 := by
    refine List.countP_eq_zero.mpr fun x hx hlt => ?_
    obtain ⟨i, hi, rfl⟩ := List.mem_take_iff_getElem.mp hx
    have hkey := Double.key_lt_key (of_decide_eq_true hlt)
    rcases Nat.lt_or_ge i k with hik | hik
    · exact absurd (List.pairwise_iff_getElem.mp h i k _ hk hik) (Int.not_le.mpr hkey)
    · have : i = k := by omega
      subst this
      exact absurd hkey (Int.lt_irrefl _)
  have hback := List.countP_le_length (p := fun x => decide (sorted[k] < x))
    (l := sorted.drop (k + 1))
  calc sorted.countP (fun x => decide (sorted[k] < x))
      = (sorted.take (k + 1) ++ sorted.drop (k + 1)).countP (fun x => decide (sorted[k] < x)) := by
        rw [List.take_append_drop]
    _ = (sorted.drop (k + 1)).countP (fun x => decide (sorted[k] < x)) := by
        rw [List.countP_append, hfront, Nat.zero_add]
    _ ≤ sorted.length - (k + 1) := by rwa [List.length_drop] at hback
    _ = sorted.length - 1 - k := by omega

end TotalOrder

/-- **Not more values are beyond a quantile than there are places behind it.** -/
theorem countP_beyond_quantile {values : List Float} {q t : Float}
    (h : quantile values q = some t) :
    values.countP (fun x => decide (t < x)) ≤
      values.length - 1 - quantilePlace q (values.length - 1) := by
  have hperm := TotalOrder.perm_sort values
  rw [← hperm.countP_eq, ← hperm.length_eq]
  exact TotalOrder.countP_sorted (TotalOrder.pairwise_sort values) h

theorem quantilePlace_le (q : Float) (last : Nat) : quantilePlace q last ≤ last :=
  Nat.min_le_right _ _

/-- A quantile of values is the one at its place in order. -/
theorem quantileBy_eq_getElem? {α : Type} (place : α → Int) (values : List α) (q : Float) :
    quantileBy place values q =
      (TotalOrder.sortBy place values)[quantilePlace q (values.length - 1)]? := by
  rw [quantileBy, quantileOfSorted, TotalOrder.length_sortBy]

/-- **There is a quantile exactly where there are values.** -/
theorem quantileBy_eq_none {α : Type} {place : α → Int} {values : List α} {q : Float} :
    quantileBy place values q = none ↔ values = [] := by
  have hplace := quantilePlace_le q (values.length - 1)
  rw [quantileBy_eq_getElem?, List.getElem?_eq_none_iff, TotalOrder.length_sortBy,
    ← List.length_eq_zero_iff]
  omega

/-- Where there are values, there is a quantile. -/
theorem exists_quantile {values : List Float} (h : values ≠ []) (q : Float) :
    ∃ t, quantile values q = some t :=
  Option.ne_none_iff_exists'.mp (mt quantileBy_eq_none.mp h)

/-! ### Places -/

theorem isShare_iff {q : Float} : Settings.isShare q = true ↔ 0.0 ≤ q ∧ q ≤ 1.0 := by
  simp [Settings.isShare]

/-- A share need not be brought between zero and one. -/
theorem clampShare_of_isShare {q : Float} (h : Settings.isShare q = true) : clampShare q = q := by
  obtain ⟨hlow, hhigh⟩ := isShare_iff.mp h
  have hnumber : q.isNaN = false := by
    change (Double.parts q).isNaN = false
    rcases Double.parts_of_share hlow hhigh with ⟨s, hq⟩ | ⟨m, e, hm, hq, -⟩
    · rw [hq]
      rfl
    · rw [hq]
      rfl
  have hzero : (0.0 : Float).isNaN = false := rfl
  have hone : (1.0 : Float).isNaN = false := rfl
  unfold clampShare
  rw [if_neg (Bool.eq_false_iff.mp hnumber), if_neg ((Double.le_iff_not_lt hzero hnumber).mp hlow),
    if_neg ((Double.le_iff_not_lt hnumber hone).mp hhigh)]

/-- Whatever is brought between zero and one is a share. -/
theorem isShare_clampShare (q : Float) : Settings.isShare (clampShare q) = true := by
  have hzero : (0.0 : Float).isNaN = false := rfl
  have hone : (1.0 : Float).isNaN = false := rfl
  unfold clampShare
  split
  · decide +kernel
  · rename_i hnumber
    have hnumber : q.isNaN = false := Bool.eq_false_iff.mpr hnumber
    split
    · decide +kernel
    · split
      · decide +kernel
      · exact isShare_iff.mpr ⟨(Double.le_iff_not_lt hzero hnumber).mpr ‹_›,
          (Double.le_iff_not_lt hnumber hone).mpr ‹_›⟩

theorem quantilePlace_of_isShare {q : Float} (h : Settings.isShare q = true) (last : Nat) :
    quantilePlace q last = min (q * Float.ofNat last).toUInt64.toNat last := by
  rw [quantilePlace, clampShare_of_isShare h]

variable {last : Nat}

/-- **The place of a quantile** is the whole part of the share of the last place, as doubles are
multiplied. -/
theorem quantilePlace_eq_floor_clampShare (q : Float) (hlast : last < 2 ^ 64) :
    quantilePlace q last = min ⌊Double.value (clampShare q * Float.ofNat last)⌋₊ last := by
  obtain ⟨hlow, hhigh⟩ := isShare_iff.mp (isShare_clampShare q)
  rw [quantilePlace, Double.toNat_toUInt64 (Double.isFinite_mul_ofNat hlow hhigh hlast)]
  omega

theorem quantilePlace_eq_floor {q : Float} (h : Settings.isShare q = true) (hlast : last < 2 ^ 53) :
    quantilePlace q last = min ⌊Double.value (q * Float.ofNat last)⌋₊ last := by
  rw [quantilePlace_eq_floor_clampShare q (Nat.lt_trans hlast (by decide)), clampShare_of_isShare h]

/-- The place of the whole share is the last one. -/
theorem quantilePlace_one (hlast : last < 2 ^ 53) : quantilePlace 1.0 last = last := by
  have hfloor := quantilePlace_eq_floor (q := 1.0) (by decide +kernel) hlast
  rw [hfloor, Double.one_mul, Double.value_ofNat hlast, Nat.floor_natCast, Nat.min_self]

end TrafficWatch
