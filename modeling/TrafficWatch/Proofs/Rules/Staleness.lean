import Mathlib.Data.List.Dedup
import Mathlib.Data.List.Perm.Subperm
import TrafficWatch.Proofs.Rules.Isolation

/-!
# Rules — Staleness

How long a window stays in the store.  An idle window is dropped by a sweep, but a sweep comes only
when an event does and the last one is long enough ago, and it reckons in whole milliseconds.  So a
window may outlive the time it is kept by the interval between sweeps and one millisecond, and by no
more (`Settings.staleness`).

`RuleDetector.Stores` is the invariant: when the last sweep ended, every window that is still there
had been idle for no longer than allowed, and a key without a window has been silent for longer than
that.  Both bounds follow from it: no window is stale, and none is dropped too early
(`RuleDetector.windows_stay_current`).
-/

namespace TrafficWatch

/-! ### Whole milliseconds -/

/-- The millisecond in which an instant lies starts before it. -/
theorem Instant.start_millisecond_le (t : Instant) : t.millisecond * 1000000 ≤ t := by
  have h := Int.mul_fdiv_add_fmod t 1000000
  have hpos := Int.fmod_nonneg_of_pos t (b := 1000000) (by decide)
  unfold millisecond
  lia

/-- The millisecond in which an instant lies ends after it. -/
theorem Instant.lt_end_millisecond (t : Instant) : t < (t.millisecond + 1) * 1000000 := by
  have h := Int.mul_fdiv_add_fmod t 1000000
  have hlt := Int.fmod_lt_of_pos t (b := 1000000) (by decide)
  unfold millisecond
  lia

theorem Instant.millisecond_mono {t u : Instant} (h : t ≤ u) : t.millisecond ≤ u.millisecond := by
  have ht := t.start_millisecond_le
  have hu := u.lt_end_millisecond
  lia

/-- Lengths of time that can be set are whole milliseconds. -/
theorem Settings.milliseconds_duration (s : Settings) (span : Span) :
    (s.duration span).milliseconds * 1000000 = s.duration span := by
  have hmillion : s.duration span = (s.seconds span : Int) * 1000 * 1000000 := by
    unfold duration Duration.ofSeconds
    lia
  rw [Duration.milliseconds, hmillion, Int.mul_tdiv_cancel _ (by decide)]

theorem Settings.duration_nonneg (s : Settings) (span : Span) : 0 ≤ s.duration span := by
  unfold duration Duration.ofSeconds
  lia

theorem Settings.milliseconds_nonneg (s : Settings) (span : Span) :
    0 ≤ (s.duration span).milliseconds := by
  have h := s.milliseconds_duration span
  have hspan := s.duration_nonneg span
  lia

/-- How long ago the last event of a window can be that is still stored. -/
def Settings.staleness (s : Settings) : Duration :=
  s.duration .windowTtl + s.duration .pruneInterval + 1000000

/-! ### The last observation of a key -/

namespace History

/-- The last observation of one client on one route. -/
def last? (h : History) (key : WindowKey) : Option Observation :=
  (h.ofKey key).getLast?

/-- The clients and routes of which anything no older than a span has been observed, each once. -/
def keysWithin (h : History) (now : Instant) (span : Duration) : List WindowKey :=
  ((h.filter fun o => decide (now - o.time ≤ span)).map (·.event.windowKey)).dedup

theorem last?_snoc_self (h : History) (o : Observation) :
    last? (h ++ [o]) o.event.windowKey = some o := by
  rw [last?, ofKey_snoc_self, List.getLast?_concat]

theorem last?_snoc_of_ne {o : Observation} {key : WindowKey} (hkey : key ≠ o.event.windowKey)
    (h : History) : last? (h ++ [o]) key = h.last? key := by
  rw [last?, ofKey_snoc_of_ne hkey, last?]

theorem mem_of_last? {h : History} {key : WindowKey} {o : Observation} (ho : h.last? key = some o) :
    o ∈ h ∧ o.event.windowKey = key := by
  have hmem := List.mem_filter.mp (List.mem_of_getLast? ho)
  exact ⟨hmem.1, of_decide_eq_true hmem.2⟩

/-- No observation of a key is later than the last one. -/
theorem Ordered.le_last? {h : History} (hordered : h.Ordered) {key : WindowKey} {o : Observation}
    (ho : h.last? key = some o) : (h.ofKey key).Until o.time := by
  obtain ⟨before, hbefore⟩ := List.getLast?_eq_some_iff.mp ho
  intro p hp
  rw [hbefore] at hp
  rcases List.mem_append.mp hp with hp | hp
  · have hpairs := hordered.ofKey key
    rw [hbefore] at hpairs
    exact (List.pairwise_append.mp hpairs).2.2 p hp o List.mem_cons_self
  · rw [List.mem_singleton.mp hp]

end History

/-- A key that has a window is found with it. -/
theorem WindowStore.exists_get? {s : WindowStore} {key : WindowKey}
    (h : key ∈ s.entries.map Prod.fst) : ∃ w, s.get? key = some w := by
  refine Option.isSome_iff_exists.mp (Option.isSome_iff_ne_none.mpr fun hnone => ?_)
  obtain ⟨entry, hentry, rfl⟩ := List.mem_map.mp h
  have hne := List.lookup_eq_none_iff.mp hnone entry hentry
  simp at hne

namespace RuleDetector

/-! ### Runs -/

/-- The rules after a step. -/
def step (d : RuleDetector) : RuleStep → RuleDetector
  | .observe o => (d.observe o.event o.time).2
  | .evictIdle now => (d.evictIdle now).2

/-- The rules after a run. -/
def after (d : RuleDetector) (steps : List RuleStep) : RuleDetector :=
  steps.foldl step d

/-- When the rules sweep on their own in a step, if they do. -/
def sweepTime? (d : RuleDetector) : RuleStep → Option Instant
  | .observe o => if d.isSweepDue o.time then some o.time else none
  | .evictIdle _ => none

/-- When the rules sweep on their own in a run. -/
def sweepTimes (d : RuleDetector) : List RuleStep → List Instant
  | [] => []
  | step :: rest => (d.sweepTime? step).toList ++ (d.step step).sweepTimes rest

/-- What is left of a store still has every window in which anything no older than a span was
recorded. -/
def Spares (left : RuleDetector) (d : RuleDetector) (h : History) (now : Instant)
    (span : Duration) : Prop :=
  ∀ o ∈ h, now - o.time ≤ span → ∃ w, d.windows.get? o.event.windowKey = some w ∧
    left.windows.get? o.event.windowKey = some w

/-- **The windows are current** right after an observation, the last one of a history. -/
structure IsCurrent (d : RuleDetector) (s : Settings) (h : History) (o : Observation) : Prop where
  /-- The window of the observation is stored. -/
  stored : d.windows.contains o.event.windowKey = true
  /-- The last event of every window is not too long ago. -/
  recent : ∀ key w, d.windows.get? key = some w →
    ∃ p, h.last? key = some p ∧ p.time = w.lastSeen ∧ o.time - p.time ≤ s.staleness
  /-- There are not more windows than clients and routes that have been seen lately. -/
  few : d.windows.size ≤ (h.keysWithin o.time s.staleness).length

/-! ### The invariant -/

/-- **What is stored** after a history, at a time. -/
structure Stores (d : RuleDetector) (s : Settings) (h : History) (now : Instant) : Prop where
  settings : d.settings = s
  keyed : d.windows.Keyed
  ordered : h.Ordered
  past : h.Until now
  swept : d.lastSweep ≤ now.millisecond
  /-- A window was last seen at the last observation of its key. -/
  seen : ∀ key w, d.windows.get? key = some w → ∃ o, h.last? key = some o ∧ o.time = w.lastSeen
  /-- At the last sweep, no window had been idle for too long. -/
  recent : ∀ key w, d.windows.get? key = some w →
    d.lastSweep * 1000000 - w.lastSeen ≤ s.duration .windowTtl
  /-- A key without a window has been silent for too long. -/
  gone : ∀ key, d.windows.get? key = none → (h.ofKey key).Expired now (s.duration .windowTtl)

variable {s : Settings} {d : RuleDetector} {h : History} {now : Instant}

theorem settings_sweep (d : RuleDetector) (now : Instant) : (d.sweep now).settings = d.settings := by
  unfold sweep
  split <;> rfl

theorem lastSweep_sweep (d : RuleDetector) (now : Instant) :
    (d.sweep now).lastSweep = if d.isSweepDue now then now.millisecond else d.lastSweep := by
  unfold sweep
  split <;> rfl

theorem stores_start (s : Settings) (now : Instant) : (start s now).Stores s [] now where
  settings := rfl
  keyed := WindowStore.keyed_empty
  ordered := List.Pairwise.nil
  past := fun _ ho => absurd ho List.not_mem_nil
  swept := Int.le_refl _
  seen := fun _ _ hw => by cases hw
  recent := fun _ _ hw => by cases hw
  gone := fun _ _ _ ho => absurd ho List.not_mem_nil

/-- The clock has moved on. -/
theorem Stores.later (hd : d.Stores s h now) {t : Instant} (ht : now ≤ t) : d.Stores s h t where
  settings := hd.settings
  keyed := hd.keyed
  ordered := hd.ordered
  past := fun o ho => Int.le_trans (hd.past o ho) ht
  swept := Int.le_trans hd.swept (Instant.millisecond_mono ht)
  seen := hd.seen
  recent := hd.recent
  gone := fun key hnone => (hd.gone key hnone).mono ht (Int.le_refl _)

/-- A window that a sweep leaves was there before, and has not been idle for too long. -/
theorem Stores.of_evictIdle (hd : d.Stores s h now) {key : WindowKey} {w : Window}
    (hw : (d.evictIdle now).2.windows.get? key = some w) :
    d.windows.get? key = some w ∧ now - w.lastSeen ≤ s.duration .windowTtl := by
  rw [get?_windows_evictIdle hd.keyed] at hw
  obtain ⟨hget, hidle⟩ := Option.filter_eq_some_iff.mp hw
  rw [hd.settings] at hidle
  have hle : ¬ s.duration .windowTtl < now - w.lastSeen := by
    simpa [WindowStore.isIdle] using hidle
  exact ⟨hget, Int.not_lt.mp hle⟩

/-- A window that has not been idle for too long is left by a sweep. -/
theorem Stores.get?_evictIdle (hd : d.Stores s h now) {key : WindowKey} {w : Window}
    (hw : d.windows.get? key = some w) (hrecent : now - w.lastSeen ≤ s.duration .windowTtl) :
    (d.evictIdle now).2.windows.get? key = some w := by
  have hkept : WindowStore.isIdle now (s.duration .windowTtl) w = false :=
    decide_eq_false (Int.not_lt.mpr hrecent)
  rw [get?_windows_evictIdle hd.keyed, hw, hd.settings]
  exact Option.filter_eq_some_iff.mpr ⟨rfl, by rw [hkept]; rfl⟩

theorem Stores.evictIdle (hd : d.Stores s h now) : (d.evictIdle now).2.Stores s h now where
  settings := hd.settings
  keyed := hd.keyed.evictIdle now (d.settings.duration .windowTtl) fun _ => false
  ordered := hd.ordered
  past := hd.past
  swept := hd.swept
  seen := fun key w hw => hd.seen key w (hd.of_evictIdle hw).1
  recent := fun key w hw => hd.recent key w (hd.of_evictIdle hw).1
  gone := fun key hnone => by
    cases hw : d.windows.get? key with
    | none => exact hd.gone key hw
    | some w =>
      -- the window was dropped, and with it the last observation of its key has expired
      have hidle : s.duration .windowTtl < now - w.lastSeen := Int.not_le.mp fun hrecent =>
        Option.some_ne_none w ((hd.get?_evictIdle hw hrecent).symm.trans hnone)
      obtain ⟨last, hlast, htime⟩ := hd.seen key w hw
      intro o ho
      have hle := hd.ordered.le_last? hlast o ho
      lia

/-- **A sweep** that is due starts the reckoning anew. -/
theorem Stores.sweep (hd : d.Stores s h now) : (d.sweep now).Stores s h now := by
  unfold RuleDetector.sweep
  split
  · have hswept := hd.evictIdle
    refine ⟨hswept.settings, hswept.keyed, hswept.ordered, hswept.past, Int.le_refl _, hswept.seen,
      fun key w hw => ?_, hswept.gone⟩
    have hrecent := (hd.of_evictIdle hw).2
    have hstart := now.start_millisecond_le
    change now.millisecond * 1000000 - w.lastSeen ≤ _
    lia
  · exact hd

/-- **An observation.** -/
theorem Stores.observe {o : Observation} (hd : d.Stores s h o.time) :
    (d.observe o.event o.time).2.Stores s (h ++ [o]) o.time := by
  have hswept := hd.sweep
  refine ⟨hswept.settings, hswept.keyed.put _ _, hd.ordered.snoc hd.past, hd.past.snoc,
    hswept.swept, fun key w hw => ?_, fun key w hw => ?_, fun key hnone => ?_⟩
  · rw [get?_windows_observe] at hw
    split at hw
    · cases hw
      subst key
      exact ⟨o, History.last?_snoc_self h o, rfl⟩
    · rw [History.last?_snoc_of_ne ‹_›]
      exact hswept.seen key w hw
  · rw [get?_windows_observe] at hw
    split at hw
    · cases hw
      -- what is recorded now comes after the last sweep
      have hstart := o.time.start_millisecond_le
      have hsweep : (d.sweep o.time).lastSweep ≤ o.time.millisecond := hswept.swept
      have httl := s.duration_nonneg .windowTtl
      change (d.sweep o.time).lastSweep * 1000000 - o.time ≤ _
      lia
    · exact hswept.recent key w hw
  · rw [get?_windows_observe] at hnone
    split at hnone
    · cases hnone
    · rw [History.ofKey_snoc_of_ne ‹_›]
      exact hswept.gone key hnone

/-! ### Runs and sweeps -/

/-- **What is stored after a run** on a clock that never steps back. -/
theorem Stores.after {steps : List RuleStep} :
    ∀ {d : RuleDetector} {h : History} {now : Instant}, d.Stores s h now → Forward now steps →
      ∀ t, (∀ step ∈ steps, step.time ≤ t) → now ≤ t →
        (d.after steps).Stores s (h ++ observations steps) t := by
  induction steps with
  | nil =>
    intro d h now hd _ t _ ht
    rw [observations, List.filterMap_nil, List.append_nil]
    exact hd.later ht
  | cons step rest ih =>
    intro d h now hd hclock t hlater _
    obtain ⟨hfirst, hrest⟩ := List.pairwise_cons.mp hclock
    have hd := hd.later (hfirst step.time List.mem_cons_self)
    have ht := hlater step List.mem_cons_self
    have hrestLater : ∀ step ∈ rest, step.time ≤ t := fun step hstep =>
      hlater step (List.mem_cons_of_mem _ hstep)
    cases step with
    | observe o =>
      have hafter := ih hd.observe hrest t hrestLater ht
      rwa [List.append_assoc] at hafter
    | evictIdle _ => exact ih hd.evictIdle hrest t hrestLater ht

/-- **Sweeps are far apart**, also from the one before the run. -/
theorem pairwise_sweepTimes (steps : List RuleStep) :
    ∀ d : RuleDetector, d.settings = s →
      (d.lastSweep :: (d.sweepTimes steps).map Instant.millisecond).Pairwise
        fun a b => (s.duration .pruneInterval).milliseconds < b - a := by
  induction steps with
  | nil => exact fun d _ => List.pairwise_singleton _ _
  | cons step rest ih =>
    intro d hd
    cases step with
    | evictIdle t => exact ih (d.evictIdle t).2 hd
    | observe o =>
      have hrest := ih (d.observe o.event o.time).2 ((settings_sweep d o.time).trans hd)
      have hlast : (d.observe o.event o.time).2.lastSweep = _ := lastSweep_sweep d o.time
      rw [hlast] at hrest
      change (d.lastSweep ::
        ((if d.isSweepDue o.time then some o.time else none).toList ++ _).map _).Pairwise _
      by_cases hdue : d.isSweepDue o.time = true
      · rw [if_pos hdue] at hrest ⊢
        have hfar : (s.duration .pruneInterval).milliseconds < o.time.millisecond - d.lastSweep :=
          hd ▸ of_decide_eq_true hdue
        have hpos := s.milliseconds_nonneg .pruneInterval
        refine List.pairwise_cons.mpr ⟨fun b hb => ?_, hrest⟩
        rcases List.mem_cons.mp hb with rfl | hb
        · exact hfar
        · have hnext := (List.pairwise_cons.mp hrest).1 b hb
          lia
      · rw [if_neg hdue] at hrest ⊢
        exact hrest

/-- What a sweep leaves spares every window that has not been idle for too long. -/
theorem Stores.spares (hd : d.Stores s h now) :
    (d.evictIdle now).2.Spares d h now (s.duration .windowTtl) := by
  intro o ho hrecent
  have hkey : o ∈ h.ofKey o.event.windowKey := List.mem_filter.mpr ⟨ho, decide_eq_true rfl⟩
  cases hw : d.windows.get? o.event.windowKey with
  | none => exact absurd (hd.gone _ hw o hkey) (Int.not_lt.mpr hrecent)
  | some w =>
    obtain ⟨last, hlast, htime⟩ := hd.seen _ w hw
    have hle := hd.ordered.le_last? hlast o hkey
    exact ⟨w, rfl, hd.get?_evictIdle hw (by lia)⟩

theorem Stores.spares_sweep (hd : d.Stores s h now) :
    (d.sweep now).Spares d h now (s.duration .windowTtl) := by
  intro o ho hrecent
  obtain ⟨w, hw, hleft⟩ := hd.spares o ho hrecent
  unfold RuleDetector.sweep
  split
  · exact ⟨w, hw, hleft⟩
  · exact ⟨w, hw, hw⟩

/-- Right after an observation the last sweep is no longer ago than the interval between sweeps, but
for one millisecond. -/
theorem Stores.age_le {o : Observation} (hd : d.Stores s h o.time) {key : WindowKey} {w : Window}
    (hw : (d.observe o.event o.time).2.windows.get? key = some w) :
    o.time - w.lastSeen ≤ s.staleness := by
  have hrecent := hd.observe.recent key w hw
  have hend := o.time.lt_end_millisecond
  have hinterval := s.milliseconds_duration .pruneInterval
  have hpos := s.milliseconds_nonneg .pruneInterval
  have hlast : (d.observe o.event o.time).2.lastSweep = _ := lastSweep_sweep d o.time
  have hsweep : o.time.millisecond - (d.observe o.event o.time).2.lastSweep ≤
      (s.duration .pruneInterval).milliseconds := by
    rw [hlast]
    split
    · lia
    · rename_i hdue
      have hdue : ¬ (d.settings.duration .pruneInterval).milliseconds <
          o.time.millisecond - d.lastSweep := fun hlt => hdue (decide_eq_true hlt)
      rw [hd.settings] at hdue
      exact Int.not_lt.mp hdue
  unfold Settings.staleness
  lia

theorem Stores.isCurrent {o : Observation} (hd : d.Stores s h o.time) :
    (d.observe o.event o.time).2.IsCurrent s (h ++ [o]) o := by
  have hrecent : ∀ key w, (d.observe o.event o.time).2.windows.get? key = some w →
      ∃ p, History.last? (h ++ [o]) key = some p ∧ p.time = w.lastSeen ∧
        o.time - p.time ≤ s.staleness := fun key w hw => by
    obtain ⟨p, hp, htime⟩ := hd.observe.seen key w hw
    exact ⟨p, hp, htime, htime ▸ hd.age_le hw⟩
  refine ⟨?_, hrecent, ?_⟩
  · rw [WindowStore.contains, get?_windows_observe, if_pos rfl]
    rfl
  · -- keys are stored once, and all of them have been seen lately
    have hsubset : (d.observe o.event o.time).2.windows.entries.map Prod.fst ⊆
        History.keysWithin (h ++ [o]) o.time s.staleness := fun key hkey => by
      obtain ⟨w, hw⟩ := WindowStore.exists_get? hkey
      obtain ⟨p, hp, -, hage⟩ := hrecent key w hw
      obtain ⟨hmem, rfl⟩ := History.mem_of_last? hp
      exact List.mem_dedup.mpr (List.mem_map_of_mem (List.mem_filter.mpr ⟨hmem, decide_eq_true hage⟩))
    have hle := (List.Nodup.subperm hd.observe.keyed hsubset).length_le
    rwa [List.length_map] at hle

/-- **The windows stay current.** Whatever the settings, let anything be observed and swept from
outside on a clock that never steps back, and then be observed once more.  Right after it, its window
is stored, and no window is whose last event is longer ago than the time a window is kept, the interval
between sweeps, and a millisecond; so there are not more windows than clients and routes that have been
seen in that time.  The rules never sweep twice within the interval, and no sweep, neither their own
nor one from outside, drops a window whose last event is no longer ago than a window is kept. -/
theorem windows_stay_current (s : Settings) (started : Instant) (steps : List RuleStep)
    (o : Observation) (hclock : Forward started (steps ++ [.observe o])) :
    let d := (start s started).after steps
    let h := observations steps
    (d.observe o.event o.time).2.IsCurrent s (h ++ [o]) o ∧
      ((start s started).sweepTimes (steps ++ [.observe o])).Pairwise
        (fun a b => (s.duration .pruneInterval).milliseconds < b.millisecond - a.millisecond) ∧
      (d.sweep o.time).Spares d h o.time (s.duration .windowTtl) ∧
      (d.evictIdle o.time).2.Spares d h o.time (s.duration .windowTtl) := by
  intro d h
  have hclock : (started :: (steps.map RuleStep.time ++ [o.time])).Pairwise (· ≤ ·) := by
    rw [Forward, List.map_append] at hclock
    exact hclock
  rw [← List.cons_append] at hclock
  obtain ⟨hforward, -, hlast⟩ := List.pairwise_append.mp hclock
  have hd : d.Stores s h o.time := (stores_start s started).after hforward o.time
    (fun step hstep =>
      hlast _ (List.mem_cons_of_mem _ (List.mem_map_of_mem hstep)) _ List.mem_cons_self)
    (hlast _ List.mem_cons_self _ List.mem_cons_self)
  have hsweeps := (List.pairwise_cons.mp
    (pairwise_sweepTimes (steps ++ [.observe o]) (start s started) rfl)).2
  exact ⟨hd.isCurrent, List.pairwise_map.mp hsweeps, hd.spares_sweep, hd.spares⟩

/-- A window that had been idle for just as long as allowed when the rules swept.  It is still there
when the next sweep is all but due, and with it the last observation. -/
theorem windows_stay_current_lingering :
    let s : Settings := { Settings.usual 1 with windowTtlSeconds := 2, pruneIntervalSeconds := 10 }
    let seen (client : String) (time : Instant) : Observation :=
      ⟨⟨some client, 1.0, 200, false, false, "GET", "/", 3.0⟩, time⟩
    let steps : List RuleStep := [.observe (seen "alice" 9000000000), .observe (seen "bob" 11000000000)]
    let last := seen "bob" 21000999999
    let d := (((start s 0).after steps).observe last.event last.time).2
    Forward 0 (steps ++ [.observe last]) ∧
      d.IsCurrent s (observations steps ++ [last]) last ∧
      (start s 0).sweepTimes (steps ++ [.observe last]) = [11000000000] ∧
      (d.windows.get? ⟨"alice", "/"⟩).map (last.time - ·.lastSeen) = some 12000999999 ∧
      s.staleness = 12001000000 := by
  intro s seen steps last d
  have hclock : Forward 0 (steps ++ [.observe last]) := by decide
  obtain ⟨hcurrent, -⟩ := windows_stay_current s 0 steps last hclock
  exact ⟨hclock, hcurrent, by decide +kernel, by decide +kernel, by decide⟩

end RuleDetector

end TrafficWatch
