import Mathlib.Data.Finset.Card
import Mathlib.Data.Finset.Range
import TrafficWatch.Proofs.Rules.WindowHandles

/-!
# Rules — Recording

Recordings that run side by side, while windows are handed out and swept away.  In a `SharedRun` many
recordings have begun, and one of them moves at a time; a sweep may come between any two moves.
`SharedRun.Sound` is what every step preserves: a recording holds a window that the store keeps for
its key, or one that is retired, and a window holds what has been recorded in it, each event once.

A recording has to ask again only if its window has been retired meanwhile, so it comes to its end
(`SharedRun.Sound.advances`).
-/

namespace TrafficWatch

/-! ### Windows that show an event -/

/-- A time that is noted is not dropped at once. -/
theorem Timeline.mem_expire_note (times : Timeline) (now : Instant) {span : Duration}
    (hspan : 0 ≤ span) : now ∈ (times.note now true).expire now span := by
  have hyoung : decide (span < now - now) = false := by simpa using hspan
  unfold note expire
  rw [if_pos rfl]
  induction times with
  | nil =>
      rw [List.nil_append, List.dropWhile_cons, hyoung]
      exact List.mem_singleton_self now
  | cons t rest ih =>
      rw [List.cons_append, List.dropWhile_cons]
      split
      · exact ih
      · exact List.mem_cons_of_mem _ (List.mem_append_right _ (List.mem_singleton_self now))

namespace Window

/-- An event is among what a window counts. -/
structure Shows (w : Window) (e : Event) (now : Instant) : Prop where
  lastSeen : w.lastSeen = now
  requests : now ∈ w.requests
  clientErrors : e.isClientError = true → now ∈ w.clientErrors
  serverErrors : e.isServerError = true → now ∈ w.serverErrors
  wafHits : e.wafHit = true → now ∈ w.wafHits

/-- The spans hold the present. -/
def HasSpans (w : Window) : Prop :=
  0 ≤ w.rpsSpan ∧ 0 ≤ w.errorSpan

/-- An event that has been recorded counts. -/
theorem HasSpans.shows {w : Window} (h : w.HasSpans) (e : Event) (now : Instant) :
    (w.record e now).Shows e now where
  lastSeen := rfl
  requests := Timeline.mem_expire_note _ now h.1
  clientErrors := fun he => by
    simp only [record, he]
    exact Timeline.mem_expire_note _ now h.2
  serverErrors := fun he => by
    simp only [record, he]
    exact Timeline.mem_expire_note _ now h.2
  wafHits := fun he => by
    simp only [record, he]
    exact Timeline.mem_expire_note _ now h.2

/-- A window as it is made. -/
def IsFresh (w : Window) : Prop :=
  ∃ rpsSpan errorSpan now, w = .fresh rpsSpan errorSpan now

theorem IsFresh.hasSpans {w : Window} (h : w.IsFresh) : w.HasSpans := by
  obtain ⟨rpsSpan, errorSpan, now, rfl⟩ := h
  have hsecond : (0 : Int) ≤ Duration.ofSeconds 1 := by decide
  exact ⟨Int.le_trans hsecond (Int.le_max_right ..), Int.le_trans hsecond (Int.le_max_right ..)⟩

end Window

/-! ### Runs -/

namespace Recording

/-- The window in which a recording has written. -/
def wroteIn? (r : Recording) : Option Nat :=
  match r.stage with
  | .done n _ => some n
  | _ => none

/-- The recording has written. -/
def IsDone (r : Recording) : Prop :=
  r.wroteIn?.isSome = true

theorem wroteIn?_of_asking {r : Recording} (h : r.stage = .asking) : r.wroteIn? = none := by
  rw [wroteIn?, h]

theorem wroteIn?_of_holding {r : Recording} {n : Nat} (h : r.stage = .holding n) :
    r.wroteIn? = none := by
  rw [wroteIn?, h]

theorem not_isDone {r : Recording} (h : r.wroteIn? = none) : ¬ r.IsDone := by
  rw [IsDone, h]
  exact Bool.false_ne_true

/-- What a recording has come to fits the windows. -/
structure IsPlaced (r : Recording) (s : SharedWindows) : Prop where
  fresh : r.new.IsFresh
  /-- The window that it holds is kept for its key, or retired. -/
  holding : ∀ n, r.stage = .holding n → (r.key, n) ∈ s.kept ∨ ∃ w, s.Retired n w
  wrote : ∀ n, r.wroteIn? = some n → n < s.made.length

theorem IsPlaced.later {r : Recording} {s s' : SharedWindows} (h : r.IsPlaced s)
    (hlater : s.Later s') : r.IsPlaced s' where
  fresh := h.fresh
  holding := fun n hn => by
    rcases h.holding n hn with hkept | ⟨w, hw⟩
    · exact hlater.kept r.key n hkept
    · exact .inr ⟨w, hlater.retired n w hw⟩
  wrote := fun n hn => Nat.lt_of_lt_of_le (h.wrote n hn) hlater.length

/-- **One move of a recording.** -/
inductive Moves (r : Recording) (s : SharedWindows) : Recording → SharedWindows → Prop where
  /-- It is given the window that the store keeps for its key. -/
  | asks {n : Nat} {w : Window} {s' : SharedWindows} (hstage : r.stage = .asking)
      (hobtain : s.obtain r.key r.new = (n, s')) (hkept : s'.number? r.key = some n)
      (hlives : s'.Lives n w) : Moves r s { r with stage := .holding n } s'
  /-- It writes in its window, which is still the one that the store keeps for its key, and the counts
  that it takes show the event. -/
  | writes {n : Nat} {w : Window} (hstage : r.stage = .holding n)
      (hkept : s.number? r.key = some n) (hlives : s.Lives n w)
      (hshows : (w.record r.event r.time).Shows r.event r.time) :
      Moves r s { r with stage := .done n (w.record r.event r.time).counts }
        (s.put n (w.record r.event r.time))
  /-- Its window has been retired meanwhile. -/
  | retries {n : Nat} {w : Window} (hstage : r.stage = .holding n) (hretired : s.Retired n w) :
      Moves r s { r with stage := .asking } s
  /-- It has come to its end. -/
  | rests (hdone : r.IsDone) : Moves r s r s

/-- A recording moves in one of these ways. -/
theorem IsPlaced.moves {r : Recording} {s : SharedWindows} (h : r.IsPlaced s) (hs : s.Sound)
    (hspans : ∀ n w, s.Lives n w → w.HasSpans) : r.Moves s (r.move s).1 (r.move s).2 := by
  unfold move
  cases hstage : r.stage with
  | asking =>
      obtain ⟨hsound, -, hkept⟩ := hs.obtain r.key r.new
      obtain ⟨w, hw⟩ := hsound.lives hkept
      exact .asks hstage rfl (hsound.number?_eq_some.mpr hkept) hw
  | holding n =>
      rcases h.holding n hstage with hkept | ⟨w, hretired⟩
      · obtain ⟨w, hw⟩ := hs.lives hkept
        simp only [SharedWindows.write?_of_lives hw]
        exact .writes hstage (hs.number?_eq_some.mpr hkept) hw ((hspans n w hw).shows _ _)
      · simp only [SharedWindows.write?_of_retired hretired]
        exact .retries hstage hretired
  | done n counts =>
      refine .rests ?_
      rw [IsDone, wroteIn?, hstage]
      rfl

end Recording

/-- What can happen to shared windows. -/
inductive SharedStep where
  /-- A handle to the window of a key is given out. -/
  | acquire (key : WindowKey) (new : { w : Window // w.IsFresh })
  /-- A recording begins. -/
  | begin (key : WindowKey) (e : Event) (now : Instant) (new : { w : Window // w.IsFresh })
  /-- The recording that began at some place moves on. -/
  | move (i : Nat)
  /-- A sweep, while the windows of some handles are in use. -/
  | evictIdle (now : Instant) (ttl : Duration) (held : List Nat)

/-- Whether it is a move of a recording. -/
def SharedStep.isMoveOf (i : Nat) : SharedStep → Bool
  | move j => i == j
  | _ => false

/-- Shared windows, and the recordings that have begun. -/
structure SharedRun where
  shared : SharedWindows
  begun : List Recording

namespace SharedRun

/-- Nothing has happened. -/
def empty : SharedRun := ⟨.empty, []⟩

/-- What a step leaves. -/
def step (r : SharedRun) : SharedStep → SharedRun
  | .acquire key new => { r with shared := r.shared.acquire key new }
  | .begin key e now new => { r with begun := r.begun ++ [⟨key, e, now, new, .asking⟩] }
  | .move i =>
    match r.begun[i]? with
    | some recording =>
      let (recording, shared) := recording.move r.shared
      ⟨shared, r.begun.set i recording⟩
    | none => r
  | .evictIdle now ttl held => { r with shared := (r.shared.evictIdle now ttl held).2 }

/-- What steps leave, one after the other. -/
def runAll (r : SharedRun) (steps : List SharedStep) : SharedRun :=
  steps.foldl step r

/-- A window holds what has been recorded in it: it was made fresh, and each recording that has written
in it has done so once, in some order. -/
def Written (r : SharedRun) (n : Nat) (w : Window) : Prop :=
  ∃ (new : Window) (order : List (Nat × Recording)), new.IsFresh ∧ (order.map Prod.fst).Nodup ∧
    (∀ i recording, (i, recording) ∈ order ↔
      r.begun[i]? = some recording ∧ recording.wroteIn? = some n) ∧
    w = order.foldl (fun w entry => w.record entry.2.event entry.2.time) new

/-- **What every step preserves.** -/
structure Sound (r : SharedRun) : Prop where
  shared : r.shared.Sound
  placed : ∀ recording ∈ r.begun, recording.IsPlaced r.shared
  written : ∀ n x, r.shared.made[n]? = some x → r.Written n x.window

theorem sound_empty : empty.Sound where
  shared := SharedWindows.sound_empty
  placed := fun _ h => absurd h List.not_mem_nil
  written := fun n x h => by simp [empty, SharedWindows.empty] at h

variable {r r' : SharedRun} {recording : Recording} {n i : Nat} {w : Window}

theorem Written.hasSpans (h : r.Written n w) : w.HasSpans := by
  obtain ⟨new, order, hfresh, -, -, rfl⟩ := h
  have hspans := hfresh.hasSpans
  clear hfresh
  induction order generalizing new with
  | nil => exact hspans
  | cons entry rest ih => exact ih _ hspans

/-- Nothing more has been recorded in a window. -/
theorem Written.of_same (h : r.Written n w)
    (hsame : ∀ (i : Nat) (x : Recording), r'.begun[i]? = some x ∧ x.wroteIn? = some n ↔
      r.begun[i]? = some x ∧ x.wroteIn? = some n) : r'.Written n w := by
  obtain ⟨new, order, hfresh, hnodup, horder, hw⟩ := h
  exact ⟨new, order, hfresh, hnodup, fun i recording => (horder i recording).trans
    (hsame i recording).symm, hw⟩

/-- Nothing has been recorded yet in a window that was just made. -/
theorem Sound.written_new (hr : r.Sound) {new : Window} (hnew : new.IsFresh) :
    r.Written r.shared.made.length new := by
  refine ⟨new, [], hnew, List.nodup_nil, fun i recording => ?_, rfl⟩
  refine iff_of_false List.not_mem_nil fun ⟨hi, hwrote⟩ => ?_
  exact Nat.lt_irrefl _ ((hr.placed recording (List.mem_of_getElem? hi)).wrote _ hwrote)

theorem Sound.written_obtain (hr : r.Sound) (key : WindowKey) {new : Window} (hnew : new.IsFresh)
    {x : SharedWindow} (h : (r.shared.obtain key new).2.made[n]? = some x) : r.Written n x.window := by
  cases hnumber : r.shared.number? key with
  | some m =>
      rw [SharedWindows.obtain_of_some hnumber] at h
      exact hr.written n x h
  | none =>
      rw [SharedWindows.obtain_of_none hnumber, SharedWindows.getElem?_add] at h
      split at h
      · rename_i hn
        cases h
        subst hn
        exact hr.written_new hnew
      · exact hr.written n x h

/-- What a recording has written, when one of the others has moved. -/
theorem wrote_set {begun : List Recording} {recording' : Recording} (h : begun[i]? = some recording)
    (hnot : recording.wroteIn? = none) (j : Nat) (x : Recording) :
    (begun.set i recording')[j]? = some x ∧ x.wroteIn? = some n ↔
      begun[j]? = some x ∧ x.wroteIn? = some n ∨
        j = i ∧ x = recording' ∧ recording'.wroteIn? = some n := by
  by_cases hij : i = j
  · subst hij
    have hlt := (List.getElem?_eq_some_iff.mp h).1
    rw [List.getElem?_set_self hlt, h]
    constructor
    · rintro ⟨hx, hwrote⟩
      cases hx
      exact .inr ⟨rfl, rfl, hwrote⟩
    · rintro (⟨hx, hwrote⟩ | ⟨-, rfl, hwrote⟩)
      · cases hx
        rw [hnot] at hwrote
        cases hwrote
      · exact ⟨rfl, hwrote⟩
  · rw [List.getElem?_set_ne hij]
    simp [Ne.symm hij]

/-- A recording that begins has written nothing. -/
theorem wrote_snoc (begun : List Recording) (hnot : recording.wroteIn? = none) (j : Nat)
    (x : Recording) :
    (begun ++ [recording])[j]? = some x ∧ x.wroteIn? = some n ↔
      begun[j]? = some x ∧ x.wroteIn? = some n := by
  rcases Nat.lt_or_ge j begun.length with hj | hj
  · rw [List.getElem?_append_left hj]
  · rw [List.getElem?_append_right hj, List.getElem?_eq_none hj]
    refine iff_of_false (fun ⟨hx, hwrote⟩ => ?_) fun h => by cases h.1
    rw [← List.mem_singleton.mp (List.mem_of_getElem? hx), hwrote] at hnot
    cases hnot

/-- What is left of a run when one recording has changed, and the windows with it. -/
theorem Sound.of_set (hr : r.Sound) {s' : SharedWindows} {recording' : Recording} (hs' : s'.Sound)
    (hlater : r.shared.Later s') (hplaced : recording'.IsPlaced s')
    (hwritten : ∀ n x, s'.made[n]? = some x →
      Written ⟨s', r.begun.set i recording'⟩ n x.window) :
    Sound ⟨s', r.begun.set i recording'⟩ where
  shared := hs'
  placed := fun x hx => by
    rcases List.mem_or_eq_of_mem_set hx with hx | rfl
    · exact (hr.placed x hx).later hlater
    · exact hplaced
  written := hwritten

/-- A recording that moves without writing leaves what has been written. -/
theorem Written.set (h : r.Written n w) (hi : r.begun[i]? = some recording)
    (hnot : recording.wroteIn? = none) {recording' : Recording}
    (hnot' : recording'.wroteIn? ≠ some n) (s' : SharedWindows) :
    Written ⟨s', r.begun.set i recording'⟩ n w := by
  refine h.of_same fun j x => (wrote_set hi hnot j x).trans ?_
  exact ⟨fun h => h.resolve_right fun h => hnot' h.2.2, .inl⟩

/-- **A recording that writes** adds itself to what has been written in its window. -/
theorem Written.snoc (h : r.Written n w) (hi : r.begun[i]? = some recording)
    (hnot : recording.wroteIn? = none) {counts : Counts} (s' : SharedWindows) :
    Written ⟨s', r.begun.set i { recording with stage := .done n counts }⟩ n
      (w.record recording.event recording.time) := by
  obtain ⟨new, order, hfresh, hnodup, horder, rfl⟩ := h
  have hnew : i ∉ order.map Prod.fst := fun hmem => by
    obtain ⟨⟨i, x⟩, hx, rfl⟩ := List.mem_map.mp hmem
    obtain ⟨hx, hwrote⟩ := (horder i x).mp hx
    cases hi.symm.trans hx
    rw [hnot] at hwrote
    cases hwrote
  refine ⟨new, order ++ [(i, { recording with stage := .done n counts })], hfresh, ?_,
    fun j x => ?_, ?_⟩
  · simpa using hnodup.concat hnew
  · rw [List.mem_append, List.mem_singleton, horder, wrote_set hi hnot]
    refine or_congr_right ?_
    rw [Prod.mk.injEq]
    exact and_congr_right fun _ => (and_iff_left rfl).symm
  · rw [List.foldl_append]
    rfl

/-- **A move of a recording** preserves it. -/
theorem Sound.of_moves (hr : r.Sound) (hi : r.begun[i]? = some recording) {recording' : Recording}
    {s' : SharedWindows} (hmoves : recording.Moves r.shared recording' s') :
    Sound ⟨s', r.begun.set i recording'⟩ ∧ r.shared.Later s' := by
  have hplaced := hr.placed recording (List.mem_of_getElem? hi)
  cases hmoves with
  | @asks n w s' hstage hobtain hkept hlives =>
      obtain ⟨hs', hlater, hmem⟩ := hr.shared.obtain recording.key recording.new
      have hmade (m : Nat) (x : SharedWindow) (hx : s'.made[m]? = some x) : r.Written m x.window := by
        refine hr.written_obtain recording.key hplaced.fresh ?_
        rw [hobtain]
        exact hx
      rw [hobtain] at hs' hlater hmem
      have hnot := Recording.wroteIn?_of_asking hstage
      refine ⟨hr.of_set hs' hlater ⟨hplaced.fresh, fun m hm => ?_, nofun⟩ fun m x hx => ?_, hlater⟩
      · cases hm
        exact .inl hmem
      · exact (hmade m x hx).set hi hnot (by rintro ⟨⟩) s'
  | @writes n w hstage hkept hlives hshows =>
      have hnot := Recording.wroteIn?_of_holding hstage
      have hlater := SharedWindows.later_put hlives (w.record recording.event recording.time)
      refine ⟨hr.of_set (hr.shared.put hlives _) hlater ⟨hplaced.fresh, nofun, fun m hm => ?_⟩
        fun m x hx => ?_, hlater⟩
      · cases hm
        exact Nat.lt_of_lt_of_le hlives.lt hlater.length
      · -- its window shows one event more, and all others are as they were
        by_cases hm : n = m
        · subst hm
          obtain rfl : x = ⟨w.record recording.event recording.time, false⟩ :=
            Option.some.inj (hx.symm.trans (SharedWindows.lives_put hlives _))
          exact (hr.written n ⟨w, false⟩ hlives).snoc hi hnot _
        · rw [SharedWindows.getElem?_put_of_ne _ hm] at hx
          exact (hr.written m x hx).set hi hnot (fun h => by cases h; exact hm rfl) _
  | @retries n w hstage hretired =>
      have hnot := Recording.wroteIn?_of_holding hstage
      refine ⟨hr.of_set hr.shared (.refl _) ⟨hplaced.fresh, nofun, nofun⟩ fun m x hx => ?_, .refl _⟩
      exact (hr.written m x hx).set hi hnot (by rintro ⟨⟩) _
  | rests hdone =>
      obtain ⟨hlt, rfl⟩ := List.getElem?_eq_some_iff.mp hi
      rw [List.set_getElem_self]
      exact ⟨hr, .refl _⟩

theorem Sound.move (hr : r.Sound) (hi : r.begun[i]? = some recording) :
    recording.Moves r.shared (recording.move r.shared).1 (recording.move r.shared).2 :=
  (hr.placed recording (List.mem_of_getElem? hi)).moves hr.shared
    fun n w hw => (hr.written n ⟨w, false⟩ hw).hasSpans

theorem step_move (hi : r.begun[i]? = some recording) :
    r.step (.move i) =
      ⟨(recording.move r.shared).2, r.begun.set i (recording.move r.shared).1⟩ := by
  rw [step, hi]

/-- What holds of the windows after a sweep, held before. -/
theorem Sound.of_evictIdle (hr : r.Sound) (now : Instant) (ttl : Duration) (held : List Nat) :
    Sound ⟨(r.shared.evictIdle now ttl held).2, r.begun⟩ := by
  obtain ⟨hs', hlater⟩ := hr.shared.evictIdle now ttl held
  have hevicts := hr.shared.evicts now ttl held
  refine ⟨hs', fun x hx => (hr.placed x hx).later hlater, fun n x hx => ?_⟩
  by_cases hidle : r.shared.IsIdle now ttl held n
  · -- what is retired has been written in while it was not
    obtain ⟨w, hw, -⟩ := hidle.idle
    obtain rfl : x = ⟨w, true⟩ := Option.some.inj (hx.symm.trans (hevicts.dropped n w hidle hw))
    exact hr.written n ⟨w, false⟩ hw
  · exact hr.written n x ((hevicts.others n hidle).symm.trans hx)

/-- **One step** preserves it, and is followed by what comes later. -/
theorem Sound.step (hr : r.Sound) (st : SharedStep) :
    (r.step st).Sound ∧ r.shared.Later (r.step st).shared := by
  cases st with
  | acquire key new =>
      obtain ⟨hs', hlater⟩ := hr.shared.acquire key new
      refine ⟨⟨hs', fun x hx => (hr.placed x hx).later hlater, fun n x hx => ?_⟩, hlater⟩
      exact hr.written_obtain key new.2 hx
  | begin key e now new =>
      refine ⟨⟨hr.shared, fun x hx => ?_, fun n x hx => ?_⟩, .refl _⟩
      · rcases List.mem_append.mp hx with hx | hx
        · exact hr.placed x hx
        · cases List.mem_singleton.mp hx
          exact ⟨new.2, nofun, nofun⟩
      · exact (hr.written n x hx).of_same fun j y => wrote_snoc r.begun rfl j y
  | move i =>
      cases hi : r.begun[i]? with
      | none =>
          rw [SharedRun.step, hi]
          exact ⟨hr, .refl _⟩
      | some recording =>
          rw [step_move hi]
          exact hr.of_moves hi (hr.move hi)
  | evictIdle now ttl held =>
      exact ⟨hr.of_evictIdle now ttl held, (hr.shared.evictIdle now ttl held).2⟩

end SharedRun

/-! ### Coming to an end -/

namespace SharedWindows

/-- The numbers of the windows that are retired. -/
def retiredNumbers (s : SharedWindows) : Finset Nat :=
  (Finset.range s.made.length).filter fun n => s.made[n]?.any SharedWindow.isRetired

theorem mem_retiredNumbers {s : SharedWindows} {n : Nat} :
    n ∈ s.retiredNumbers ↔ ∃ w, s.Retired n w := by
  unfold retiredNumbers
  rw [Finset.mem_filter, Finset.mem_range]
  constructor
  · rintro ⟨hn, hretired⟩
    rcases lives_or_retired hn with ⟨w, hw⟩ | hw
    · rw [hw.getElem?] at hretired
      cases hretired
    · exact hw
  · rintro ⟨w, hw⟩
    refine ⟨hw.lt, ?_⟩
    rw [hw.getElem?]
    rfl

theorem Later.retiredNumbers_subset {s s' : SharedWindows} (h : s.Later s') :
    s.retiredNumbers ⊆ s'.retiredNumbers := fun n hn => by
  obtain ⟨w, hw⟩ := mem_retiredNumbers.mp hn
  exact mem_retiredNumbers.mpr ⟨w, h.retired n w hw⟩

end SharedWindows

open SharedWindows (retiredNumbers mem_retiredNumbers)

namespace Recording

variable {r r' r₁ : Recording} {s s' s₁ : SharedWindows}

/-- The moves that a recording needs at most, if no more windows are retired. -/
def movesLeft (r : Recording) (s : SharedWindows) : Nat :=
  match r.stage with
  | .asking => 2
  | .holding n => if n ∈ s.retiredNumbers then 3 else 1
  | .done _ _ => 0

/-- **How a recording comes on**: in so many moves it comes to its end, or has fewer moves left, unless
more windows have been retired.  What it has come to at its end stays. -/
structure Advances (r : Recording) (s : SharedWindows) (moves : Nat) (r' : Recording)
    (s' : SharedWindows) : Prop where
  same : r' = { r with stage := r'.stage }
  done : r.IsDone → r' = r
  bound : r'.IsDone ∨ r'.movesLeft s' + moves + 2 * s.retiredNumbers.card ≤
    r.movesLeft s + 2 * s'.retiredNumbers.card

theorem Advances.trans {moves moves' : Nat} (h : r.Advances s moves r₁ s₁)
    (h' : r₁.Advances s₁ moves' r' s') : r.Advances s (moves + moves') r' s' where
  same := by rw [h'.same, h.same]
  done := fun hdone => by
    have hfirst := h.done hdone
    rw [h'.done (hfirst ▸ hdone), hfirst]
  bound := by
    rcases h'.bound with hdone | hsecond
    · exact .inl hdone
    rcases h.bound with hdone | hfirst
    · exact .inl (h'.done hdone ▸ hdone)
    · exact .inr (by omega)

/-- While others act, a recording stays where it is.  A window that is retired costs it two moves at
most. -/
theorem advances_of_later (r : Recording) (h : s.Later s') : r.Advances s 0 r s' where
  same := rfl
  done := fun _ => rfl
  bound := by
    have hsub := h.retiredNumbers_subset
    have hcard := Finset.card_le_card hsub
    refine .inr ?_
    unfold movesLeft
    cases r.stage with
    | asking | done n counts => simp only; omega
    | holding n =>
        simp only
        by_cases hn : n ∈ s.retiredNumbers
        · rw [if_pos hn, if_pos (hsub hn)]
          omega
        · rw [if_neg hn]
          split
          · -- its window has been retired meanwhile, so there are more of them
            rename_i hn'
            have hlt := Finset.card_lt_card ((Finset.ssubset_iff_of_subset hsub).mpr ⟨n, hn', hn⟩)
            omega
          · omega

/-- **A move** brings a recording on. -/
theorem Moves.advances (h : r.Moves s r' s') (hlater : s.Later s') : r.Advances s 1 r' s' := by
  have hcard := Finset.card_le_card hlater.retiredNumbers_subset
  cases h with
  | @asks n w _ hstage _ _ hlives =>
      have hn : n ∉ s'.retiredNumbers := fun hn => by
        obtain ⟨w', hw'⟩ := mem_retiredNumbers.mp hn
        exact hlives.not_retired w' hw'
      refine ⟨rfl, fun hdone => absurd hdone (not_isDone (wroteIn?_of_asking hstage)), .inr ?_⟩
      simp only [movesLeft, hstage, if_neg hn]
      omega
  | writes hstage =>
      exact ⟨rfl, fun hdone => absurd hdone (not_isDone (wroteIn?_of_holding hstage)), .inl rfl⟩
  | @retries n w hstage hretired =>
      have hn : n ∈ s.retiredNumbers := mem_retiredNumbers.mpr ⟨w, hretired⟩
      refine ⟨rfl, fun hdone => absurd hdone (not_isDone (wroteIn?_of_holding hstage)), .inr ?_⟩
      simp only [movesLeft, hstage, if_pos hn]
      omega
  | rests hdone => exact ⟨rfl, fun _ => rfl, .inl hdone⟩

theorem movesLeft_le (r : Recording) (s : SharedWindows) : r.movesLeft s ≤ 3 := by
  unfold movesLeft
  cases r.stage with
  | asking | done n counts => simp only; omega
  | holding n => simp only; split <;> omega

theorem movesLeft_pos (h : ¬ r.IsDone) (s : SharedWindows) : 0 < r.movesLeft s := by
  unfold movesLeft
  cases hstage : r.stage with
  | asking => exact Nat.two_pos
  | holding n => simp only; split <;> omega
  | done n counts => exact absurd (by rw [IsDone, wroteIn?, hstage]; rfl) h

end Recording

namespace SharedRun

variable {r : SharedRun} {recording : Recording} {i : Nat}

theorem Sound.advances_step (hr : r.Sound) (hi : r.begun[i]? = some recording) (st : SharedStep) :
    ∃ recording', (r.step st).begun[i]? = some recording' ∧
      recording.Advances r.shared (if st.isMoveOf i then 1 else 0) recording' (r.step st).shared := by
  obtain ⟨hsound, hlater⟩ := hr.step st
  have hrests := recording.advances_of_later hlater
  cases st with
  | acquire key new => exact ⟨recording, hi, hrests⟩
  | begin key e now new =>
      exact ⟨recording, (List.getElem?_append_left (List.getElem?_eq_some_iff.mp hi).1).trans hi,
        hrests⟩
  | evictIdle now ttl held => exact ⟨recording, hi, hrests⟩
  | move j =>
      by_cases hij : i = j
      · subst hij
        have hmoves := hr.move hi
        rw [step_move hi] at hlater ⊢
        refine ⟨_, List.getElem?_set_self (List.getElem?_eq_some_iff.mp hi).1, ?_⟩
        simpa [SharedStep.isMoveOf] using hmoves.advances hlater
      · have hrest : (r.step (.move j)).begun[i]? = some recording := by
          cases hj : r.begun[j]? with
          | none =>
              rw [SharedRun.step, hj]
              exact hi
          | some x =>
              rw [step_move hj]
              exact (List.getElem?_set_ne (Ne.symm hij)).trans hi
        refine ⟨recording, hrest, ?_⟩
        simpa [SharedStep.isMoveOf, hij] using hrests

/-- **A whole run** brings a recording on. -/
theorem Sound.advances (hr : r.Sound) (hi : r.begun[i]? = some recording) (steps : List SharedStep) :
    ∃ recording', (r.runAll steps).begun[i]? = some recording' ∧
      recording.Advances r.shared (steps.countP (SharedStep.isMoveOf i)) recording'
        (r.runAll steps).shared := by
  induction steps generalizing r recording with
  | nil => exact ⟨recording, hi, recording.advances_of_later (.refl _)⟩
  | cons st rest ih =>
      obtain ⟨recording₁, hi₁, hfirst⟩ := hr.advances_step hi st
      obtain ⟨recording', hi', hrest⟩ := ih (hr.step st).1 hi₁
      refine ⟨recording', hi', ?_⟩
      rw [List.countP_cons, Nat.add_comm]
      exact hfirst.trans hrest

theorem Sound.runAll (hr : r.Sound) (steps : List SharedStep) :
    (r.runAll steps).Sound ∧ r.shared.Later (r.runAll steps).shared := by
  induction steps generalizing r with
  | nil => exact ⟨hr, .refl _⟩
  | cons st rest ih =>
      obtain ⟨hsound, hlater⟩ := hr.step st
      obtain ⟨hsound', hlater'⟩ := ih hsound
      exact ⟨hsound', hlater.trans hlater'⟩

/-- **What holds at every moment of a run.** -/
structure Lawful (r : SharedRun) : Prop where
  /-- The windows in the store are not retired, -/
  kept : ∀ key n, (key, n) ∈ r.shared.kept → ∃ w, r.shared.Lives n w
  /-- and all others are. -/
  dropped : ∀ n, n < r.shared.made.length → (∀ key, (key, n) ∉ r.shared.kept) →
    ∃ w, r.shared.Retired n w
  /-- Handles refer to windows. -/
  handles : ∀ handle ∈ r.shared.handles, ∃ n, handle = .made n ∧ n < r.shared.made.length
  /-- A retired window never changes, and never comes back. -/
  retired : ∀ steps n w, r.shared.Retired n w →
    (r.runAll steps).shared.Retired n w ∧ ∀ key, (key, n) ∉ (r.runAll steps).shared.kept
  /-- A sweep drops the idle windows that nobody holds. -/
  sweeps : ∀ now ttl held, r.shared.Evicts now ttl held (r.shared.evictIdle now ttl held).1
    (r.shared.evictIdle now ttl held).2
  /-- A recording that moves is given the window of its key, writes in it while the store keeps it, or
  asks again because it has been retired. -/
  moves : ∀ recording ∈ r.begun,
    recording.Moves r.shared (recording.move r.shared).1 (recording.move r.shared).2
  /-- A window holds the events that were recorded in it, each once. -/
  written : ∀ n x, r.shared.made[n]? = some x → r.Written n x.window
  /-- A recording has come to its end after three moves and two more for each window that is retired
  meanwhile, and stays there. -/
  done : ∀ i recording steps, r.begun[i]? = some recording →
    ∃ recording', (r.runAll steps).begun[i]? = some recording' ∧
      recording' = { recording with stage := recording'.stage } ∧
      (recording.IsDone → recording' = recording) ∧
      (2 + 2 * ((r.runAll steps).shared.retiredNumbers \ r.shared.retiredNumbers).card <
          steps.countP (SharedStep.isMoveOf i) → recording'.IsDone)

theorem Sound.lawful (hr : r.Sound) : r.Lawful where
  kept := fun _ _ h => hr.shared.lives h
  dropped := fun _ hn h => hr.shared.retired hn h
  handles := hr.shared.handles
  retired := fun steps n w h => by
    obtain ⟨hsound, hlater⟩ := hr.runAll steps
    have hretired := hlater.retired n w h
    exact ⟨hretired, fun key => hsound.shared.not_kept hretired key⟩
  sweeps := hr.shared.evicts
  moves := fun recording h => by
    obtain ⟨i, hi⟩ := List.getElem?_of_mem h
    exact hr.move hi
  written := hr.written
  done := fun i recording steps hi => by
    obtain ⟨recording', hi', hadvances⟩ := hr.advances hi steps
    refine ⟨recording', hi', hadvances.same, hadvances.done, fun hmany => ?_⟩
    rcases hadvances.bound with hdone | hbound
    · exact hdone
    by_contra hrests
    have hsub := (hr.runAll steps).2.retiredNumbers_subset
    have hcard := Finset.card_sdiff_add_card_eq_card hsub
    have hleft := recording.movesLeft_le r.shared
    have hpos := Recording.movesLeft_pos hrests (r.runAll steps).shared
    omega

/-- **Recordings never write in a window that the store has dropped.** Let handles be given out, let
recordings run side by side and let sweeps come at any moment.  The store always keeps exactly the
windows that are not retired; what is retired stays so and never changes; a sweep drops the idle windows
that nobody holds; and every recording writes its event once, in the window that the store keeps for its
key at that moment, and comes to its end. -/
theorem recordings_lawful (steps : List SharedStep) : (empty.runAll steps).Lawful :=
  (sound_empty.runAll steps).1.lawful

/-- The window that a recording was given is swept away before it can write, so it asks again and
writes in the next one. -/
example :
    let new : { w : Window // w.IsFresh } := ⟨.fresh 1000 60000 0, _, _, _, rfl⟩
    let e : Event := ⟨some "alice", 1.0, 404, false, false, "GET", "/", 3.0⟩
    let r := empty.runAll [.begin e.windowKey e 0 new, .move 0, .evictIdle 5000 1000 [], .move 0,
      .move 0, .move 0]
    r.begun.map Recording.wroteIn? = [some 1] ∧
      r.shared.made.map (fun x => (x.isRetired, x.window.clientErrors)) =
        [(true, []), (false, [0])] := by
  decide +kernel

end SharedRun

end TrafficWatch
