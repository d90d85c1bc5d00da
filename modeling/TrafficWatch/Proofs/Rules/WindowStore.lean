import Mathlib.Data.List.Basic
import TrafficWatch.Rules.WindowStore

/-!
# Rules — Window store

What a store of windows answers after each operation, in terms of `get?`.  A store is *keyed* when
no key has two entries; all operations keep it so, and only then does a sweep drop exactly the
windows that `get?` finds idle (`get?_evictIdle`).
-/

namespace TrafficWatch.WindowStore

/-- No key has two entries. -/
def Keyed (s : WindowStore) : Prop :=
  (s.entries.map Prod.fst).Nodup

theorem keyed_empty : Keyed .empty :=
  List.nodup_nil

theorem lookup_cons_of_ne {k k₀ : WindowKey} (h : k ≠ k₀) (w : Window)
    (entries : List (WindowKey × Window)) : ((k₀, w) :: entries).lookup k = entries.lookup k := by
  rw [List.lookup_cons, beq_false_of_ne h]

/-! ### Recording -/

theorem lookup_putEntry (key k : WindowKey) (w : Window) (entries : List (WindowKey × Window)) :
    (putEntry key w entries).lookup k = if k = key then some w else entries.lookup k := by
  induction entries with
  | nil =>
      by_cases hk : k = key
      · rw [hk, if_pos rfl, putEntry, List.lookup_cons_self]
      · rw [if_neg hk, putEntry, lookup_cons_of_ne hk]
  | cons e rest ih =>
      obtain ⟨k₀, old⟩ := e
      unfold putEntry
      by_cases hk : k = k₀
      · subst hk
        by_cases h : k = key <;> simp [h]
      · by_cases h : k₀ = key
        · rw [if_pos h, if_neg (h ▸ hk), lookup_cons_of_ne hk, lookup_cons_of_ne hk]
        · rw [if_neg h, lookup_cons_of_ne hk, lookup_cons_of_ne hk, ih]

/-- The windows after one of them has been put into the store. -/
@[simp] theorem get?_put (s : WindowStore) (key k : WindowKey) (w : Window) :
    (s.put key w).get? k = if k = key then some w else s.get? k :=
  lookup_putEntry key k w s.entries

theorem mem_keys_putEntry (key : WindowKey) (w : Window) (entries : List (WindowKey × Window))
    {k : WindowKey} (h : k ∈ (putEntry key w entries).map Prod.fst) :
    k = key ∨ k ∈ entries.map Prod.fst := by
  induction entries with
  | nil => simpa [putEntry] using h
  | cons e rest ih =>
      obtain ⟨k₀, old⟩ := e
      unfold putEntry at h
      split at h
      · exact .inr (by simpa using h)
      · rcases List.mem_cons.mp h with rfl | h
        · exact .inr (by simp)
        · exact (ih h).imp_right fun h => List.mem_cons_of_mem _ h

theorem Keyed.put {s : WindowStore} (hs : s.Keyed) (key : WindowKey) (w : Window) :
    (s.put key w).Keyed := by
  obtain ⟨entries⟩ := s
  change ((putEntry key w entries).map Prod.fst).Nodup
  induction entries with
  | nil => simp [putEntry]
  | cons e rest ih =>
      obtain ⟨k₀, old⟩ := e
      obtain ⟨hk, hrest⟩ := List.nodup_cons.mp hs
      unfold putEntry
      split
      · exact List.nodup_cons.mpr ⟨hk, hrest⟩
      · refine List.nodup_cons.mpr ⟨fun h => ?_, ih hrest⟩
        rcases mem_keys_putEntry key w rest h with h | h
        · exact absurd h ‹_›
        · exact hk h

/-! ### Sweeping -/

theorem lookup_filter {entries : List (WindowKey × Window)} (h : (entries.map Prod.fst).Nodup)
    (p : WindowKey × Window → Bool) (k : WindowKey) :
    (entries.filter p).lookup k = (entries.lookup k).filter fun w => p (k, w) := by
  induction entries with
  | nil => rfl
  | cons e rest ih =>
      obtain ⟨k₀, w₀⟩ := e
      obtain ⟨hk, hrest⟩ := List.nodup_cons.mp h
      by_cases hkk : k = k₀
      · subst hkk
        -- no later entry can step in for the one that is dropped
        have hnone : (rest.filter p).lookup k = none := by
          rw [ih hrest, List.lookup_eq_none_iff.mpr, Option.filter_none]
          exact fun e he => bne_iff_ne.mpr fun hek => hk (List.mem_map.mpr ⟨e, he, hek.symm⟩)
        rw [List.lookup_cons_self, Option.filter_some]
        cases hp : p (k, w₀)
        · rw [List.filter_cons_of_neg (by simp [hp]), hnone, if_neg (by simp)]
        · rw [List.filter_cons_of_pos hp, List.lookup_cons_self, if_pos rfl]
      · rw [lookup_cons_of_ne hkk]
        cases hp : p (k₀, w₀)
        · rw [List.filter_cons_of_neg (by simp [hp]), ih hrest]
        · rw [List.filter_cons_of_pos hp, lookup_cons_of_ne hkk, ih hrest]

/-- **The windows after a sweep**: those that are in use or have not been idle for too long. -/
theorem get?_evictIdle {s : WindowStore} (hs : s.Keyed) (now : Instant) (ttl : Duration)
    (inUse : WindowKey → Bool) (k : WindowKey) :
    (s.evictIdle now ttl inUse).2.get? k =
      (s.get? k).filter fun w => inUse k || !isIdle now ttl w :=
  lookup_filter hs _ k

theorem Keyed.evictIdle {s : WindowStore} (hs : s.Keyed) (now : Instant) (ttl : Duration)
    (inUse : WindowKey → Bool) : (s.evictIdle now ttl inUse).2.Keyed :=
  hs.sublist (List.filter_sublist.map Prod.fst)

end TrafficWatch.WindowStore
