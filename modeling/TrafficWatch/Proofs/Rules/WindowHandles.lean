import Mathlib.Data.List.Nodup
import TrafficWatch.Proofs.Rules.WindowStore
import TrafficWatch.Rules.WindowHandles

/-!
# Rules — Window handles

What the operations on shared windows leave.  The store keeps exactly the windows that are not
retired (`SharedWindows.Sound`), and every operation preserves this.  What comes later never brings a
retired window back and never changes it (`SharedWindows.Later`).  A sweep drops exactly the idle
windows that nobody holds (`Sound.evicts`).  While nobody else acts, recordings and
sweeps are those of the plain store (`Sound.store_record`, `Sound.store_evictIdle`).
-/

namespace TrafficWatch.SharedWindows

variable {s s' s₁ : SharedWindows} {key : WindowKey} {n : Nat} {w : Window}

/-- A window that is not retired. -/
def Lives (s : SharedWindows) (n : Nat) (w : Window) : Prop :=
  s.made[n]? = some ⟨w, false⟩

/-- A window that is retired. -/
def Retired (s : SharedWindows) (n : Nat) (w : Window) : Prop :=
  s.made[n]? = some ⟨w, true⟩

theorem Lives.getElem? (h : s.Lives n w) : s.made[n]? = some ⟨w, false⟩ := h

theorem Retired.getElem? (h : s.Retired n w) : s.made[n]? = some ⟨w, true⟩ := h

theorem Lives.lt (h : s.Lives n w) : n < s.made.length :=
  (List.getElem?_eq_some_iff.mp h).1

theorem Retired.lt (h : s.Retired n w) : n < s.made.length :=
  (List.getElem?_eq_some_iff.mp h).1

theorem Lives.not_retired (h : s.Lives n w) (w' : Window) : ¬ s.Retired n w' := by
  intro hretired
  cases h.symm.trans hretired

theorem lives_or_retired (h : n < s.made.length) : (∃ w, s.Lives n w) ∨ ∃ w, s.Retired n w := by
  have hmade := List.getElem?_eq_getElem h
  cases hw : s.made[n] with
  | mk w isRetired =>
      rw [hw] at hmade
      cases isRetired with
      | false => exact .inl ⟨w, hmade⟩
      | true => exact .inr ⟨w, hmade⟩

/-- **The store keeps what is not retired**, under one key each and one window for each key.  Handles
that were given out refer to windows. -/
structure Sound (s : SharedWindows) : Prop where
  keys : (s.kept.map Prod.fst).Nodup
  numbers : (s.kept.map Prod.snd).Nodup
  kept : ∀ n, n ∈ s.kept.map Prod.snd ↔ ∃ w, s.Lives n w
  handles : ∀ handle ∈ s.handles, ∃ n, handle = .made n ∧ n < s.made.length

theorem sound_empty : empty.Sound where
  keys := List.nodup_nil
  numbers := List.nodup_nil
  kept := fun n => ⟨fun h => absurd h List.not_mem_nil, fun ⟨w, h⟩ => by simp [Lives, empty] at h⟩
  handles := fun _ h => absurd h List.not_mem_nil

/-- What stays as it is, whatever comes later. -/
structure Later (s s' : SharedWindows) : Prop where
  length : s.made.length ≤ s'.made.length
  retired : ∀ n w, s.Retired n w → s'.Retired n w
  /-- A window leaves the store only to be retired. -/
  kept : ∀ key n, (key, n) ∈ s.kept → (key, n) ∈ s'.kept ∨ ∃ w, s'.Retired n w

theorem Later.refl (s : SharedWindows) : s.Later s :=
  ⟨Nat.le_refl _, fun _ _ h => h, fun _ _ h => .inl h⟩

theorem Later.trans (h : s.Later s₁) (h' : s₁.Later s') : s.Later s' where
  length := Nat.le_trans h.length h'.length
  retired := fun n w hw => h'.retired n w (h.retired n w hw)
  kept := fun key n hn => by
    rcases h.kept key n hn with hn | ⟨w, hw⟩
    · exact h'.kept key n hn
    · exact .inr ⟨w, h'.retired n w hw⟩

namespace Sound

/-- The number of a key, if it has one. -/
theorem number?_eq_some (hs : s.Sound) : s.number? key = some n ↔ (key, n) ∈ s.kept := by
  have hkeys := hs.keys
  unfold number?
  generalize s.kept = kept at hkeys
  induction kept with
  | nil => simp
  | cons entry rest ih =>
      obtain ⟨key', n'⟩ := entry
      obtain ⟨hfirst, hrest⟩ := List.nodup_cons.mp hkeys
      by_cases hk : key = key'
      · subst hk
        rw [List.lookup_cons_self, Option.some.injEq]
        constructor
        · rintro rfl
          exact List.mem_cons_self
        · intro h
          rcases List.mem_cons.mp h with h | h
          · exact (Prod.mk.inj h).2.symm
          · exact absurd (List.mem_map_of_mem h) hfirst
      · rw [List.lookup_cons, beq_false_of_ne hk]
        simpa [hk] using ih hrest

theorem notMem_keys (hs : s.Sound) (h : s.number? key = none) : key ∉ s.kept.map Prod.fst := by
  intro hkey
  obtain ⟨⟨key, n⟩, hn, rfl⟩ := List.mem_map.mp hkey
  rw [hs.number?_eq_some.mpr hn] at h
  cases h

/-- A window in the store is not retired. -/
theorem lives (hs : s.Sound) (h : (key, n) ∈ s.kept) : ∃ w, s.Lives n w :=
  (hs.kept n).mp (List.mem_map.mpr ⟨_, h, rfl⟩)

/-- A window that is not in the store is retired. -/
theorem retired (hs : s.Sound) (hn : n < s.made.length) (h : ∀ key, (key, n) ∉ s.kept) :
    ∃ w, s.Retired n w := by
  refine (lives_or_retired hn).resolve_left fun hlives => ?_
  obtain ⟨⟨key, n'⟩, hkept, rfl⟩ := List.mem_map.mp ((hs.kept n).mpr hlives)
  exact h key hkept

/-- A retired window is not in the store. -/
theorem not_kept (hs : s.Sound) (h : s.Retired n w) (key : WindowKey) : (key, n) ∉ s.kept := by
  intro hn
  obtain ⟨w', hlives⟩ := hs.lives hn
  exact hlives.not_retired w h

theorem lt_of_kept (hs : s.Sound) (h : (key, n) ∈ s.kept) : n < s.made.length := by
  obtain ⟨w, hw⟩ := hs.lives h
  exact hw.lt

theorem forall_lt (hs : s.Sound) : ∀ entry ∈ s.kept, entry.2 < s.made.length :=
  fun _ h => hs.lt_of_kept h

end Sound

/-! ### Asking for a window -/

/-- One more window, which the store keeps for a key. -/
def add (s : SharedWindows) (key : WindowKey) (new : Window) : SharedWindows :=
  { s with made := s.made ++ [⟨new, false⟩], kept := s.kept ++ [(key, s.made.length)] }

theorem obtain_of_some (h : s.number? key = some n) (new : Window) : s.obtain key new = (n, s) := by
  rw [obtain, h]

theorem obtain_of_none (h : s.number? key = none) (new : Window) :
    s.obtain key new = (s.made.length, s.add key new) := by
  rw [obtain, h]
  rfl

theorem getElem?_add (s : SharedWindows) (key : WindowKey) (new : Window) (n : Nat) :
    (s.add key new).made[n]? = if n = s.made.length then some ⟨new, false⟩ else s.made[n]? := by
  unfold add
  rcases Nat.lt_trichotomy n s.made.length with hn | rfl | hn
  · rw [List.getElem?_append_left hn, if_neg (Nat.ne_of_lt hn)]
  · simp
  · rw [if_neg (Nat.ne_of_gt hn), List.getElem?_eq_none (Nat.le_of_lt hn)]
    exact List.getElem?_eq_none (by simpa using Nat.succ_le_of_lt hn)

theorem lives_add {new : Window} : (s.add key new).Lives n w ↔
    s.Lives n w ∨ n = s.made.length ∧ w = new := by
  unfold Lives
  rw [getElem?_add]
  split
  · rename_i hn
    subst hn
    simp [eq_comm]
  · simp [*]

theorem later_add (s : SharedWindows) (key : WindowKey) (new : Window) : s.Later (s.add key new) where
  length := by simp [add]
  retired := fun _ _ h => (List.getElem?_append_left h.lt).trans h
  kept := fun _ _ h => .inl (List.mem_append_left _ h)

theorem Sound.add (hs : s.Sound) (h : s.number? key = none) (new : Window) :
    (s.add key new).Sound where
  keys := by simpa [SharedWindows.add] using hs.keys.concat (hs.notMem_keys h)
  numbers := by
    have hnumber : s.made.length ∉ s.kept.map Prod.snd := fun hmem => by
      obtain ⟨⟨key', n⟩, hn, hlength⟩ := List.mem_map.mp hmem
      exact Nat.ne_of_lt (hs.lt_of_kept hn) hlength
    simpa [SharedWindows.add] using hs.numbers.concat hnumber
  kept := fun n => by
    have hkept : n ∈ (s.add key new).kept.map Prod.snd ↔
        n ∈ s.kept.map Prod.snd ∨ n = s.made.length := by
      simp [SharedWindows.add]
    rw [hkept, hs.kept n]
    simp only [lives_add]
    constructor
    · rintro (⟨w, hw⟩ | hn)
      · exact ⟨w, .inl hw⟩
      · exact ⟨new, .inr ⟨hn, rfl⟩⟩
    · rintro ⟨w, hw | ⟨hn, -⟩⟩
      · exact .inl ⟨w, hw⟩
      · exact .inr hn
  handles := fun handle hmem => by
    obtain ⟨n, hn, hlt⟩ := hs.handles handle hmem
    exact ⟨n, hn, Nat.lt_of_lt_of_le hlt (later_add s key new).length⟩

/-- **Who asks for the window of a key** is given the one that the store keeps, which may be new. -/
theorem Sound.obtain (hs : s.Sound) (key : WindowKey) (new : Window) :
    (s.obtain key new).2.Sound ∧ s.Later (s.obtain key new).2 ∧
      (key, (s.obtain key new).1) ∈ (s.obtain key new).2.kept := by
  cases h : s.number? key with
  | some n =>
      rw [obtain_of_some h]
      exact ⟨hs, .refl s, hs.number?_eq_some.mp h⟩
  | none =>
      rw [obtain_of_none h]
      exact ⟨hs.add h new, later_add s key new, List.mem_append_right _ (List.mem_singleton_self _)⟩

theorem Sound.acquire (hs : s.Sound) (key : WindowKey) (new : Window) :
    (s.acquire key new).Sound ∧ s.Later (s.acquire key new) := by
  obtain ⟨hsound, hlater, hkept⟩ := hs.obtain key new
  refine ⟨⟨hsound.keys, hsound.numbers, hsound.kept, fun handle hmem => ?_⟩,
    ⟨hlater.length, hlater.retired, hlater.kept⟩⟩
  rcases List.mem_append.mp hmem with hmem | hmem
  · exact hsound.handles handle hmem
  · exact ⟨_, List.mem_singleton.mp hmem, hsound.lt_of_kept hkept⟩

/-! ### Writing in a window -/

/-- Another content of a window that is not retired. -/
def put (s : SharedWindows) (n : Nat) (w : Window) : SharedWindows :=
  { s with made := s.made.set n ⟨w, false⟩ }

theorem write?_of_lives (h : s.Lives n w) (e : Event) (now : Instant) :
    s.write? n e now = some ((w.record e now).counts, s.put n (w.record e now)) := by
  rw [write?, h.getElem?]
  rfl

theorem write?_of_retired (h : s.Retired n w) (e : Event) (now : Instant) :
    s.write? n e now = none := by
  rw [write?, h.getElem?]

theorem getElem?_put_of_ne (s : SharedWindows) {m : Nat} (hne : n ≠ m) (w' : Window) :
    (s.put n w').made[m]? = s.made[m]? :=
  List.getElem?_set_ne hne

theorem lives_put (h : s.Lives n w) (w' : Window) : (s.put n w').Lives n w' :=
  List.getElem?_set_self h.lt

theorem later_put (h : s.Lives n w) (w' : Window) : s.Later (s.put n w') where
  length := by simp [put]
  retired := fun m v hm => by
    have hne : n ≠ m := by
      rintro rfl
      exact h.not_retired v hm
    exact (getElem?_put_of_ne s hne w').trans hm
  kept := fun _ _ h => .inl h

theorem Sound.put (hs : s.Sound) (h : s.Lives n w) (w' : Window) : (s.put n w').Sound where
  keys := hs.keys
  numbers := hs.numbers
  kept := fun m => by
    have hlives : (∃ v, (s.put n w').Lives m v) ↔ ∃ v, s.Lives m v := by
      by_cases hne : n = m
      · subst hne
        exact iff_of_true ⟨w', lives_put h w'⟩ ⟨w, h⟩
      · simp only [Lives, getElem?_put_of_ne s hne]
    rw [hlives]
    exact hs.kept m
  handles := fun handle hmem => by
    obtain ⟨m, hm, hlt⟩ := hs.handles handle hmem
    exact ⟨m, hm, Nat.lt_of_lt_of_le hlt (later_put h w').length⟩

/-! ### Sweeping -/

/-- A window that nobody holds, and that has been idle for too long. -/
structure IsIdle (s : SharedWindows) (now : Instant) (ttl : Duration) (held : List Nat) (n : Nat) :
    Prop where
  free : ∀ place ∈ held, s.handles[place]? ≠ some (.made n)
  idle : ∃ w, s.Lives n w ∧ ttl < now - w.lastSeen

theorem Sound.isHeld_eq_false (hs : s.Sound) (held : List Nat) (n : Nat) :
    s.isHeld held n = false ↔ ∀ place ∈ held, s.handles[place]? ≠ some (.made n) := by
  unfold isHeld
  rw [List.any_eq_false]
  refine forall₂_congr fun place _ => ?_
  rw [decide_eq_true_iff]
  cases hplace : s.handles[place]? with
  | none => simp
  | some handle =>
      -- every handle that was given out names its window
      obtain ⟨m, rfl, -⟩ := hs.handles handle (List.mem_of_getElem? hplace)
      simp [refers?]

theorem Sound.isDue_iff (hs : s.Sound) (h : (key, n) ∈ s.kept) (now : Instant) (ttl : Duration)
    (held : List Nat) : s.isDue now ttl held n = true ↔ s.IsIdle now ttl held n := by
  obtain ⟨w, hw⟩ := hs.lives h
  have hlast : (s.made[n]?.any fun w => WindowStore.isIdle now ttl w.window) =
      decide (ttl < now - w.lastSeen) := by
    rw [hw.getElem?]
    rfl
  unfold isDue
  rw [hlast, Bool.and_eq_true, Bool.not_eq_true', hs.isHeld_eq_false, decide_eq_true_iff]
  constructor
  · rintro ⟨hfree, hidle⟩
    exact ⟨hfree, w, hw, hidle⟩
  · rintro ⟨hfree, w', hw', hidle⟩
    obtain rfl : w = w' := by cases hw.symm.trans hw'; rfl
    exact ⟨hfree, hidle⟩

theorem getElem?_retire (made : List SharedWindow) (isDropped : Nat → Bool) (n : Nat) :
    (retire made isDropped)[n]? =
      made[n]?.map fun w => if isDropped n then { w with isRetired := true } else w :=
  List.getElem?_mapIdx

theorem kept_evictIdle (s : SharedWindows) (now : Instant) (ttl : Duration) (held : List Nat) :
    (s.evictIdle now ttl held).2.kept =
      s.kept.filter fun entry => !s.isDue now ttl held entry.2 := by
  simp only [evictIdle, List.partition_eq_filter_filter]
  rfl

/-- **What a sweep does.** It drops the idle windows that nobody holds, answers how many they are, and
leaves all others alone. -/
structure Evicts (s : SharedWindows) (now : Instant) (ttl : Duration) (held : List Nat) (count : Nat)
    (s' : SharedWindows) : Prop where
  kept : ∀ key n, (key, n) ∈ s'.kept ↔ (key, n) ∈ s.kept ∧ ¬ s.IsIdle now ttl held n
  order : s'.kept.Sublist s.kept
  count : s'.kept.length + count = s.kept.length
  dropped : ∀ n w, s.IsIdle now ttl held n → s.Lives n w → s'.Retired n w
  others : ∀ n, ¬ s.IsIdle now ttl held n → s'.made[n]? = s.made[n]?
  length : s'.made.length = s.made.length
  handles : s'.handles = s.handles

theorem Sound.evicts (hs : s.Sound) (now : Instant) (ttl : Duration) (held : List Nat) :
    s.Evicts now ttl held (s.evictIdle now ttl held).1 (s.evictIdle now ttl held).2 := by
  have hkept := s.kept_evictIdle now ttl held
  have hcount : (s.evictIdle now ttl held).1 =
      s.kept.length - (s.evictIdle now ttl held).2.kept.length := rfl
  have hmade (n : Nat) : (s.evictIdle now ttl held).2.made[n]? =
      s.made[n]?.map fun w =>
        if ((s.kept.filter fun entry => s.isDue now ttl held entry.2).map Prod.snd).contains n then
          { w with isRetired := true } else w := by
    simp only [evictIdle, List.partition_eq_filter_filter]
    exact getElem?_retire _ _ n
  have hcontains (n : Nat) :
      ((s.kept.filter fun entry => s.isDue now ttl held entry.2).map Prod.snd).contains n = true ↔
        s.IsIdle now ttl held n := by
    rw [List.contains_iff_mem, List.mem_map]
    constructor
    · rintro ⟨⟨key, n⟩, hmem, rfl⟩
      obtain ⟨hn, hdue⟩ := List.mem_filter.mp hmem
      exact (hs.isDue_iff hn now ttl held).mp hdue
    · intro h
      obtain ⟨w, hw, -⟩ := h.idle
      obtain ⟨⟨key, n⟩, hn, rfl⟩ := List.mem_map.mp ((hs.kept n).mpr ⟨w, hw⟩)
      exact ⟨(key, n), List.mem_filter.mpr ⟨hn, (hs.isDue_iff hn now ttl held).mpr h⟩, rfl⟩
  refine ⟨fun key n => ?_, hkept ▸ List.filter_sublist, ?_, fun n w hidle hw => ?_,
    fun n hidle => ?_, ?_, rfl⟩
  · rw [hkept, List.mem_filter]
    refine and_congr_right fun hn => ?_
    rw [Bool.not_eq_true', ← Bool.not_eq_true, hs.isDue_iff hn]
  · rw [hcount, Nat.add_sub_cancel']
    rw [hkept]
    exact List.length_filter_le _ _
  · rw [Retired, hmade, hw.getElem?, Option.map_some, if_pos ((hcontains n).mpr hidle)]
  · rw [hmade]
    cases s.made[n]? with
    | none => rfl
    | some w => rw [Option.map_some, if_neg (mt (hcontains n).mp hidle)]
  · simp [evictIdle, retire]

variable {now : Instant} {ttl : Duration} {held : List Nat} {count : Nat}

theorem Evicts.lives (h : s.Evicts now ttl held count s') :
    s'.Lives n w ↔ s.Lives n w ∧ ¬ s.IsIdle now ttl held n := by
  by_cases hidle : s.IsIdle now ttl held n
  · obtain ⟨w', hw', -⟩ := hidle.idle
    have hretired := h.dropped n w' hidle hw'
    exact iff_of_false (fun hw => hw.not_retired w' hretired) fun hw => hw.2 hidle
  · rw [Lives, h.others n hidle]
    exact ⟨fun hw => ⟨hw, hidle⟩, fun hw => hw.1⟩

theorem Evicts.sound (h : s.Evicts now ttl held count s') (hs : s.Sound) : s'.Sound where
  keys := hs.keys.sublist (h.order.map Prod.fst)
  numbers := hs.numbers.sublist (h.order.map Prod.snd)
  kept := fun n => by
    have hmem : n ∈ s'.kept.map Prod.snd ↔
        n ∈ s.kept.map Prod.snd ∧ ¬ s.IsIdle now ttl held n := by
      simp [h.kept]
    rw [hmem, hs.kept n]
    simp [h.lives]
  handles := fun handle hmem => by
    obtain ⟨n, hn, hlt⟩ := hs.handles handle (h.handles ▸ hmem)
    exact ⟨n, hn, h.length ▸ hlt⟩

theorem Evicts.later (h : s.Evicts now ttl held count s') : s.Later s' where
  length := Nat.le_of_eq h.length.symm
  retired := fun n w hw => by
    have hidle : ¬ s.IsIdle now ttl held n := fun hidle => by
      obtain ⟨w', hw', -⟩ := hidle.idle
      exact hw'.not_retired w hw
    exact (h.others n hidle).trans hw
  kept := fun key n hn => by
    by_cases hidle : s.IsIdle now ttl held n
    · obtain ⟨w, hw, -⟩ := hidle.idle
      exact .inr ⟨w, h.dropped n w hidle hw⟩
    · exact .inl ((h.kept key n).mpr ⟨hn, hidle⟩)

theorem Sound.evictIdle (hs : s.Sound) (now : Instant) (ttl : Duration) (held : List Nat) :
    (s.evictIdle now ttl held).2.Sound ∧ s.Later (s.evictIdle now ttl held).2 :=
  ⟨(hs.evicts now ttl held).sound hs, (hs.evicts now ttl held).later⟩

/-! ### The plain store -/

/-- The windows of numbers, by their keys. -/
def windowsOf (made : List SharedWindow) (kept : List (WindowKey × Nat)) : List (WindowKey × Window) :=
  kept.filterMap fun (key, n) => made[n]?.map fun w => (key, w.window)

theorem store_eq (s : SharedWindows) : s.store = ⟨windowsOf s.made s.kept⟩ :=
  rfl

theorem windowsOf_cons {made : List SharedWindow} {x : SharedWindow} (h : made[n]? = some x)
    (key : WindowKey) (rest : List (WindowKey × Nat)) :
    windowsOf made ((key, n) :: rest) = (key, x.window) :: windowsOf made rest := by
  simp [windowsOf, h]

theorem windowsOf_set_of_notMem {made : List SharedWindow} {kept : List (WindowKey × Nat)}
    (h : n ∉ kept.map Prod.snd) (x : SharedWindow) :
    windowsOf (made.set n x) kept = windowsOf made kept := by
  refine List.filterMap_congr fun (key, m) hm => ?_
  have hne : n ≠ m := fun hnm => h (List.mem_map.mpr ⟨_, hm, hnm.symm⟩)
  simp only [List.getElem?_set_ne hne]

/-- Another content of one window, seen by its key. -/
theorem windowsOf_set {made : List SharedWindow} {kept : List (WindowKey × Nat)}
    (hkeys : (kept.map Prod.fst).Nodup) (hnumbers : (kept.map Prod.snd).Nodup)
    (hn : (key, n) ∈ kept) (hlt : ∀ entry ∈ kept, entry.2 < made.length) (w' : Window) :
    windowsOf (made.set n ⟨w', false⟩) kept = WindowStore.putEntry key w' (windowsOf made kept) := by
  induction kept with
  | nil => exact absurd hn List.not_mem_nil
  | cons entry rest ih =>
      obtain ⟨key₀, n₀⟩ := entry
      obtain ⟨hkey, hkeys⟩ := List.nodup_cons.mp hkeys
      obtain ⟨hnumber, hnumbers⟩ := List.nodup_cons.mp hnumbers
      obtain ⟨hn₀, hlt⟩ := List.forall_mem_cons.mp hlt
      have hx : made[n₀]? = some made[n₀] := List.getElem?_eq_getElem hn₀
      rcases List.mem_cons.mp hn with heq | hlater
      · -- the window stands first, and no other key leads to it
        cases heq
        have hself : (made.set n ⟨w', false⟩)[n]? = some ⟨w', false⟩ := List.getElem?_set_self hn₀
        rw [windowsOf_cons hself, windowsOf_cons hx, windowsOf_set_of_notMem hnumber,
          WindowStore.putEntry, if_pos rfl]
      · have hne : n ≠ n₀ := by
          rintro rfl
          exact hnumber (List.mem_map.mpr ⟨_, hlater, rfl⟩)
        have hkey₀ : key₀ ≠ key := by
          rintro rfl
          exact hkey (List.mem_map.mpr ⟨_, hlater, rfl⟩)
        have hsame : (made.set n ⟨w', false⟩)[n₀]? = some made[n₀] :=
          (List.getElem?_set_ne hne).trans hx
        rw [windowsOf_cons hsame, windowsOf_cons hx, ih hkeys hnumbers hlater hlt,
          WindowStore.putEntry, if_neg hkey₀]

/-- A new window is like no window in the plain store, if it gets another content at once. -/
theorem windowsOf_add {made : List SharedWindow} {kept : List (WindowKey × Nat)}
    (hlt : ∀ entry ∈ kept, entry.2 < made.length) (hkey : key ∉ kept.map Prod.fst)
    (new w' : Window) :
    WindowStore.putEntry key w'
        (windowsOf (made ++ [⟨new, false⟩]) (kept ++ [(key, made.length)])) =
      WindowStore.putEntry key w' (windowsOf made kept) := by
  induction kept with
  | nil => simp [windowsOf, WindowStore.putEntry]
  | cons entry rest ih =>
      obtain ⟨key₀, n₀⟩ := entry
      obtain ⟨hn₀, hlt⟩ := List.forall_mem_cons.mp hlt
      have hkey₀ : key₀ ≠ key := fun h => hkey (h ▸ List.mem_cons_self)
      have hx : made[n₀]? = some made[n₀] := List.getElem?_eq_getElem hn₀
      have hx' : (made ++ [⟨new, false⟩])[n₀]? = some made[n₀] :=
        (List.getElem?_append_left hn₀).trans hx
      rw [List.cons_append, windowsOf_cons hx', windowsOf_cons hx, WindowStore.putEntry,
        WindowStore.putEntry, if_neg hkey₀, if_neg hkey₀, ih hlt fun h => hkey (List.mem_cons_of_mem _ h)]

/-- The plain store has the windows that are kept. -/
theorem Sound.get?_store (hs : s.Sound) (key : WindowKey) :
    s.store.get? key = (s.number? key).bind fun n => s.made[n]?.map SharedWindow.window := by
  have hlt := hs.forall_lt
  unfold WindowStore.get? number?
  rw [store_eq]
  generalize s.kept = kept at hlt
  induction kept with
  | nil => rfl
  | cons entry rest ih =>
      obtain ⟨key₀, n₀⟩ := entry
      obtain ⟨hn₀, hlt⟩ := List.forall_mem_cons.mp hlt
      have hx : s.made[n₀]? = some s.made[n₀] := List.getElem?_eq_getElem hn₀
      rw [windowsOf_cons hx]
      by_cases hk : key = key₀
      · subst hk
        rw [List.lookup_cons_self, List.lookup_cons_self, Option.bind_some, hx, Option.map_some]
      · rw [List.lookup_cons, List.lookup_cons, beq_false_of_ne hk]
        exact ih hlt

/-- **A recording while nobody else acts** is one in the plain store. -/
theorem Sound.store_record (hs : s.Sound) (key : WindowKey) (e : Event) (now : Instant)
    (new : Window) :
    (s.record key e now new).1 = (s.store.record key e now new).1 ∧
      (s.record key e now new).2.store = (s.store.record key e now new).2 := by
  cases h : s.number? key with
  | some n =>
      have hn := hs.number?_eq_some.mp h
      obtain ⟨w, hw⟩ := hs.lives hn
      have hrecord : s.record key e now new = ((w.record e now).counts, s.put n (w.record e now)) := by
        simp only [record, Recording.move, obtain_of_some h, write?_of_lives hw]
        rfl
      have hget : s.store.getOr key new = w := by
        rw [WindowStore.getOr, hs.get?_store, h, Option.bind_some, hw.getElem?]
        rfl
      rw [hrecord, WindowStore.record, hget]
      refine ⟨rfl, ?_⟩
      rw [store_eq]
      exact congrArg WindowStore.mk (windowsOf_set hs.keys hs.numbers hn hs.forall_lt _)
  | none =>
      have hsound := hs.add h new
      have hn : (key, s.made.length) ∈ (s.add key new).kept :=
        List.mem_append_right _ (List.mem_singleton_self _)
      have hlives : (s.add key new).Lives s.made.length new := lives_add.mpr (.inr ⟨rfl, rfl⟩)
      have hrecord : s.record key e now new =
          ((new.record e now).counts, (s.add key new).put s.made.length (new.record e now)) := by
        simp only [record, Recording.move, obtain_of_none h, write?_of_lives hlives]
        rfl
      have hget : s.store.getOr key new = new := by
        rw [WindowStore.getOr, hs.get?_store, h]
        rfl
      rw [hrecord, WindowStore.record, hget]
      refine ⟨rfl, congrArg WindowStore.mk ?_⟩
      exact (windowsOf_set hsound.keys hsound.numbers hn hsound.forall_lt _).trans
        (windowsOf_add hs.forall_lt (hs.notMem_keys h) new _)

theorem length_windowsOf {made : List SharedWindow} {kept : List (WindowKey × Nat)}
    (hlt : ∀ entry ∈ kept, entry.2 < made.length) : (windowsOf made kept).length = kept.length := by
  induction kept with
  | nil => rfl
  | cons entry rest ih =>
      obtain ⟨hn, hlt⟩ := List.forall_mem_cons.mp hlt
      rw [windowsOf_cons (List.getElem?_eq_getElem hn), List.length_cons, List.length_cons, ih hlt]

/-- Windows that are dropped under a condition on their numbers are dropped under one on keys and
contents. -/
theorem windowsOf_filter {made made' : List SharedWindow} {kept : List (WindowKey × Nat)}
    {drops : Nat → Bool} {keeps : WindowKey × Window → Bool}
    (h : ∀ key n, (key, n) ∈ kept → ∃ x, made[n]? = some x ∧ keeps (key, x.window) = !drops n ∧
      (drops n = false → made'[n]? = some x)) :
    windowsOf made' (kept.filter fun entry => !drops entry.2) =
      (windowsOf made kept).filter keeps := by
  induction kept with
  | nil => rfl
  | cons entry rest ih =>
      obtain ⟨key, n⟩ := entry
      obtain ⟨x, hx, hkeeps, hsame⟩ := h key n List.mem_cons_self
      have hrest := ih fun key n hn => h key n (List.mem_cons_of_mem _ hn)
      cases hdrops : drops n with
      | true =>
          rw [List.filter_cons_of_neg (by simp [hdrops]), windowsOf_cons hx,
            List.filter_cons_of_neg (by simp [hkeeps, hdrops]), hrest]
      | false =>
          rw [List.filter_cons_of_pos (by simp [hdrops]), windowsOf_cons (hsame hdrops),
            windowsOf_cons hx, List.filter_cons_of_pos (by simp [hkeeps, hdrops]), hrest]

/-- **A sweep** is one in the plain store, where the windows that are held are in use. -/
theorem Sound.store_evictIdle (hs : s.Sound) (now : Instant) (ttl : Duration) (held : List Nat) :
    let inUse key := (s.number? key).any (s.isHeld held)
    (s.evictIdle now ttl held).1 = (s.store.evictIdle now ttl inUse).1 ∧
      (s.evictIdle now ttl held).2.store = (s.store.evictIdle now ttl inUse).2 := by
  intro inUse
  have hevicts := hs.evicts now ttl held
  have hentries : windowsOf (s.evictIdle now ttl held).2.made (s.evictIdle now ttl held).2.kept =
      (windowsOf s.made s.kept).filter fun entry =>
        inUse entry.1 || !WindowStore.isIdle now ttl entry.2 := by
    rw [kept_evictIdle]
    refine windowsOf_filter fun key n hn => ?_
    obtain ⟨w, hw⟩ := hs.lives hn
    refine ⟨_, hw, ?_, fun hdue => ?_⟩
    · have hdue : s.isDue now ttl held n =
          (!s.isHeld held n && WindowStore.isIdle now ttl w) := by
        rw [isDue, hw.getElem?]
        rfl
      simp only [inUse, hs.number?_eq_some.mpr hn, hdue, Option.any_some]
      cases s.isHeld held n <;> simp
    · exact (hevicts.others n fun hidle => by
        rw [(hs.isDue_iff hn now ttl held).mpr hidle] at hdue
        cases hdue).trans hw
  refine ⟨?_, congrArg WindowStore.mk hentries⟩
  -- a sweep counts what is missing afterwards, here and there
  have hbefore := length_windowsOf hs.forall_lt
  have hafter := length_windowsOf (hevicts.sound hs).forall_lt
  rw [hentries] at hafter
  change s.kept.length - (s.evictIdle now ttl held).2.kept.length =
    (windowsOf s.made s.kept).length - _
  rw [hbefore, ← hafter]
  rfl

end TrafficWatch.SharedWindows
