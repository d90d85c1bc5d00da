import Mathlib.Data.List.DropRight
import TrafficWatch.Baseline.Buffer

/-!
# Baseline — Buffer

A buffer never holds more samples than it may.  What it holds are the latest of the samples that
were pushed, as long as nothing is pruned (`samples_push`).  If samples are in an order in which all
that are kept come last, it does not matter whether they are pruned before or after the latest are
taken (`filter_rtake`).
-/

namespace TrafficWatch

/-! ### The latest of a list -/

section Latest

variable {α : Type} {p : α → Bool} {xs : List α}

/-- What is kept comes last. -/
theorem filter_not_append_filter (h : xs.Pairwise fun a b => p a = true → p b = true) :
    (xs.filter fun a => !p a) ++ xs.filter p = xs := by
  induction xs with
  | nil => rfl
  | cons a rest ih =>
      obtain ⟨ha, hrest⟩ := List.pairwise_cons.mp h
      cases hp : p a with
      | false => simpa [hp] using ih hrest
      | true =>
          have hall : ∀ b ∈ rest, p b = true := fun b hb => ha b hb hp
          have hnone : (rest.filter fun a => !p a) = [] :=
            List.filter_eq_nil_iff.mpr fun b hb => by simp [hall b hb]
          simp [hp, hnone, List.filter_eq_self.mpr hall]

/-- **Of the latest, those that are kept** are the latest of those that are kept. -/
theorem filter_rtake (h : xs.Pairwise fun a b => p a = true → p b = true) (n : Nat) :
    (xs.rtake n).filter p = (xs.filter p).rtake n := by
  have hsplit := filter_not_append_filter h
  generalize hold : (xs.filter fun a => !p a) = old, hkept : xs.filter p = kept at hsplit ⊢
  have hnone : old.filter p = [] := by
    rw [← hold]
    simp [List.filter_filter]
  have hall : ∀ a ∈ kept, p a = true := by
    rw [← hkept]
    exact fun a ha => (List.mem_filter.mp ha).2
  rw [← hsplit, List.rtake, List.rtake, List.drop_append, List.filter_append,
    List.filter_eq_self.mpr fun a ha => hall a (List.mem_of_mem_drop ha)]
  -- nothing that is not kept is among the latest that are kept
  have hdrop : (old.drop ((old ++ kept).length - n)).filter p = [] :=
    List.filter_eq_nil_iff.mpr fun a ha =>
      List.filter_eq_nil_iff.mp hnone a (List.mem_of_mem_drop ha)
  rw [hdrop, List.nil_append, List.length_append]
  congr 1
  omega

end Latest

namespace BaselineBuffer

theorem size_push_le {b : BaselineBuffer} (hsize : b.size ≤ b.capacity) (hpos : 0 < b.capacity)
    (x : Sample) : (b.push x).2.size ≤ (b.push x).2.capacity := by
  change ((if b.isFull then b.samples.drop 1 else b.samples) ++ [x]).length ≤ b.capacity
  have hlength : b.samples.length ≤ b.capacity := hsize
  rw [List.length_append, List.length_singleton]
  split
  · rw [List.length_drop]
    omega
  · rename_i hfull
    have hroom : ¬ b.capacity ≤ b.samples.length := fun h => hfull (decide_eq_true h)
    omega

theorem size_prune_le (b : BaselineBuffer) (cutoff : Instant) : (b.prune cutoff).2.size ≤ b.size :=
  List.length_filter_le _ _

theorem length_features (b : BaselineBuffer) : b.features.length = b.size :=
  List.length_map _

/-- **A buffer of the latest samples** is one of the latest samples after one more. -/
theorem samples_push {b : BaselineBuffer} {seen : List Sample}
    (h : b.samples = seen.rtake b.capacity) (hpos : 0 < b.capacity) (x : Sample) :
    (b.push x).2.samples = (seen ++ [x]).rtake b.capacity := by
  change (if b.isFull then b.samples.drop 1 else b.samples) ++ [x] = _
  have hsize : b.size = seen.length - (seen.length - b.capacity) := by
    rw [size, h, List.rtake, List.length_drop]
  rw [h, List.rtake, List.rtake, List.length_append, List.length_singleton]
  split
  · rename_i hfull
    have hle : b.capacity ≤ b.size := of_decide_eq_true hfull
    rw [List.drop_drop, List.drop_append_of_le_length (by omega)]
    congr 2
    omega
  · rename_i hfull
    have hlt : ¬ b.capacity ≤ b.size := fun h => hfull (decide_eq_true h)
    rw [show seen.length - b.capacity = 0 by omega,
      show seen.length + 1 - b.capacity = 0 by omega]
    rfl

end BaselineBuffer

end TrafficWatch
