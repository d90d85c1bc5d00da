import Mathlib.Algebra.Ring.Nat
import TrafficWatch.Tally

/-!
# Tally

What is added to a tally shows in the count of its kind and in no other (`Tally.count_add`), and once
in the sum of all counts (`Tally.sum_add`).
-/

namespace TrafficWatch.Tally

variable {κ : Type} [DecidableEq κ]

theorem lookup_addEntry (kind : κ) (n : Nat) (entries : List (κ × Nat)) (k : κ) :
    ((addEntry kind n entries).lookup k).getD 0 =
      (entries.lookup k).getD 0 + if k = kind then n else 0 := by
  induction entries with
  | nil =>
      rw [addEntry, List.lookup_cons]
      by_cases h : k = kind
      · simp [h]
      · simp [h, beq_false_of_ne h]
  | cons e rest ih =>
      obtain ⟨k₁, c⟩ := e
      rw [addEntry]
      split
      · rename_i h
        subst h
        rw [List.lookup_cons, List.lookup_cons]
        by_cases h : k = k₁
        · simp [h]
        · simp [h, beq_false_of_ne h]
      · rename_i h
        rw [List.lookup_cons, List.lookup_cons]
        by_cases hk : k = k₁
        · subst hk
          simp [h]
        · simp only [beq_false_of_ne hk, ih]

theorem count_add (t : Tally κ) (kind : κ) (n : Nat) (k : κ) :
    (t.add kind n).count k = t.count k + if k = kind then n else 0 :=
  lookup_addEntry kind n t.entries k

theorem count_increment (t : Tally κ) (kind k : κ) :
    (t.increment kind).count k = t.count k + if k = kind then 1 else 0 :=
  t.count_add kind 1 k

theorem sum_addEntry (kind : κ) (n : Nat) (entries : List (κ × Nat)) :
    ((addEntry kind n entries).map (·.2)).sum = (entries.map (·.2)).sum + n := by
  induction entries with
  | nil => simp [addEntry]
  | cons e rest ih =>
      obtain ⟨k, c⟩ := e
      rw [addEntry]
      split
      · simp only [List.map_cons, List.sum_cons]
        omega
      · simp only [List.map_cons, List.sum_cons, ih]
        omega

/-- The sum of all counts. -/
def sum (t : Tally κ) : Nat :=
  (t.entries.map (·.2)).sum

theorem sum_add (t : Tally κ) (kind : κ) (n : Nat) : (t.add kind n).sum = t.sum + n :=
  sum_addEntry kind n t.entries

theorem sum_increment (t : Tally κ) (kind : κ) : (t.increment kind).sum = t.sum + 1 :=
  t.sum_add kind 1

end TrafficWatch.Tally
