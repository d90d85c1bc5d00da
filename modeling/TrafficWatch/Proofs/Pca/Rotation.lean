import Mathlib.Data.Fintype.Basic
import TrafficWatch.Pca.Rotation

/-!
# Pca — Rotation

What turning two columns or two rows makes of the entries.  The entries are turned pair after pair where
they stand.  As no entry belongs to two pairs, each pair is read as it was at the start
(`Square.entry_foldl_turn`), so the result is the matrix with both columns or both rows turned at once
(`Square.entry_turnColumns`, `Square.entry_turnRows`).
-/

namespace TrafficWatch.Square

variable {α : Type} {n : Nat}

@[simp]
theorem entry_ofFn (f : Fin n → Fin n → α) (i j : Fin n) : (ofFn f).entry i j = f i j := by
  simp [ofFn, entry]

/-- Another entry at one place changes nothing elsewhere. -/
theorem entry_withEntry (m : Square α n) (a b : Fin n × Fin n) (x : α) :
    (m.withEntry a.1 a.2 x).entry b.1 b.2 = if b = a then x else m.entry b.1 b.2 := by
  obtain ⟨i, j⟩ := a
  obtain ⟨k, l⟩ := b
  by_cases hk : k = i
  · subst hk
    by_cases hl : l = j
    · subst hl
      simp [withEntry, entry]
    · have : (j : Nat) ≠ l := fun h => hl (Fin.ext h.symm)
      simp [withEntry, entry, hl, this]
  · have : (i : Nat) ≠ k := fun h => hk (Fin.ext h.symm)
    simp [withEntry, entry, hk, this]

variable [Scalar α] {cos sin : α}

/-! ### Pairs of entries -/

/-- A pair of entries is turned and all others stay. -/
theorem entry_turn (m : Square α n) (a b c : Fin n × Fin n) :
    (m.turn a b cos sin).entry c.1 c.2 =
      if c = b then sin * m.entry a.1 a.2 + cos * m.entry b.1 b.2
      else if c = a then cos * m.entry a.1 a.2 - sin * m.entry b.1 b.2
      else m.entry c.1 c.2 := by
  rw [turn, entry_withEntry, entry_withEntry]

/-- Pairs of places no two of which have a place in common. -/
structure Apart (first second : Fin n → Fin n × Fin n) : Prop where
  inj₁ : Function.Injective first
  inj₂ : Function.Injective second
  ne : ∀ k l, first k ≠ second l

section Pairs

variable {first second : Fin n → Fin n × Fin n}

/-- Entries that belong to no pair stay as they are. -/
theorem entry_foldl_turn_of_ne {ks : List (Fin n)} (m : Square α n) {c : Fin n × Fin n}
    (h : ∀ k ∈ ks, c ≠ first k ∧ c ≠ second k) :
    (ks.foldl (fun m k => m.turn (first k) (second k) cos sin) m).entry c.1 c.2 =
      m.entry c.1 c.2 := by
  induction ks generalizing m with
  | nil => rfl
  | cons k ks ih =>
      obtain ⟨hk, hks⟩ := List.forall_mem_cons.mp h
      rw [List.foldl_cons, ih _ hks, entry_turn, if_neg hk.2, if_neg hk.1]

/-- **Every pair is turned as it was at the start**, whatever was turned before it. -/
theorem entry_foldl_turn (hapart : Apart first second) {ks : List (Fin n)} (hks : ks.Nodup)
    (m : Square α n) (cos sin : α) {k : Fin n} (hk : k ∈ ks) :
    let turned := ks.foldl (fun m k => m.turn (first k) (second k) cos sin) m
    let x := m.entry (first k).1 (first k).2
    let y := m.entry (second k).1 (second k).2
    turned.entry (first k).1 (first k).2 = cos * x - sin * y ∧
      turned.entry (second k).1 (second k).2 = sin * x + cos * y := by
  induction ks generalizing m with
  | nil => exact absurd hk List.not_mem_nil
  | cons l ks ih =>
      obtain ⟨hl, hks⟩ := List.nodup_cons.mp hks
      simp only [List.foldl_cons]
      rcases List.mem_cons.mp hk with rfl | hk
      · -- the pair is turned first, and no later one touches it
        have hlater (j : Fin n) (hj : j ∈ ks) : k ≠ j := fun h => hl (h ▸ hj)
        have hfirst (j : Fin n) (hj : j ∈ ks) : first k ≠ first j ∧ first k ≠ second j :=
          ⟨hapart.inj₁.ne (hlater j hj), hapart.ne k j⟩
        have hsecond (j : Fin n) (hj : j ∈ ks) : second k ≠ first j ∧ second k ≠ second j :=
          ⟨(hapart.ne j k).symm, hapart.inj₂.ne (hlater j hj)⟩
        rw [entry_foldl_turn_of_ne _ hfirst, entry_foldl_turn_of_ne _ hsecond, entry_turn, entry_turn,
          if_neg (hapart.ne k k), if_pos rfl, if_pos rfl]
        exact ⟨rfl, rfl⟩
      · -- the pair before it is another one
        have hne : k ≠ l := fun h => hl (h ▸ hk)
        obtain ⟨h₁, h₂⟩ := ih hks (m.turn (first l) (second l) cos sin) hk
        rw [entry_turn, entry_turn, if_neg (hapart.ne k l), if_neg (hapart.inj₁.ne hne),
          if_neg (hapart.inj₂.ne hne), if_neg (hapart.ne l k).symm] at h₁ h₂
        exact ⟨h₁, h₂⟩

end Pairs

/-! ### Columns and rows -/

theorem apart_columns {p q : Fin n} (hpq : p ≠ q) : Apart (fun k => (k, p)) (fun k => (k, q)) where
  inj₁ _ _ h := (Prod.mk.inj h).1
  inj₂ _ _ h := (Prod.mk.inj h).1
  ne _ _ h := hpq (Prod.mk.inj h).2

theorem apart_rows {p q : Fin n} (hpq : p ≠ q) : Apart (fun k => (p, k)) (fun k => (q, k)) where
  inj₁ _ _ h := (Prod.mk.inj h).2
  inj₂ _ _ h := (Prod.mk.inj h).2
  ne _ _ h := hpq (Prod.mk.inj h).1

variable {p q : Fin n}

/-- **The entries after two columns have been turned.** -/
theorem entry_turnColumns (hpq : p ≠ q) (m : Square α n) (i j : Fin n) :
    (m.turnColumns p q cos sin).entry i j =
      if j = p then cos * m.entry i p - sin * m.entry i q
      else if j = q then sin * m.entry i p + cos * m.entry i q
      else m.entry i j := by
  obtain ⟨hp, hq⟩ := entry_foldl_turn (apart_columns hpq) (List.nodup_finRange n) m cos sin
    (List.mem_finRange i)
  split_ifs with hjp hjq
  · rw [hjp]
    exact hp
  · rw [hjq]
    exact hq
  · exact entry_foldl_turn_of_ne m (c := (i, j)) fun k _ =>
      ⟨fun h => hjp (Prod.mk.inj h).2, fun h => hjq (Prod.mk.inj h).2⟩

/-- **The entries after two rows have been turned.** -/
theorem entry_turnRows (hpq : p ≠ q) (m : Square α n) (i j : Fin n) :
    (m.turnRows p q cos sin).entry i j =
      if i = p then cos * m.entry p j - sin * m.entry q j
      else if i = q then sin * m.entry p j + cos * m.entry q j
      else m.entry i j := by
  obtain ⟨hp, hq⟩ := entry_foldl_turn (apart_rows hpq) (List.nodup_finRange n) m cos sin
    (List.mem_finRange j)
  split_ifs with hip hiq
  · rw [hip]
    exact hp
  · rw [hiq]
    exact hq
  · exact entry_foldl_turn_of_ne m (c := (i, j)) fun k _ =>
      ⟨fun h => hip (Prod.mk.inj h).1, fun h => hiq (Prod.mk.inj h).1⟩

end TrafficWatch.Square
