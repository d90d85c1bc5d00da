import TrafficWatch.Proofs.Double.Sign
import TrafficWatch.Rules.Window
import TrafficWatch.Settings.Basic

/-!
# Rules — History

What has been observed, kept in full.  A `History` forgets nothing, so a count over it
(`History.times`) looks back at every observation and asks how old it is.  A window that records one
observation after the other keeps less, but on a clock that never steps back it keeps what counts:
`Window.Follows` says that each of its timelines holds the observations of a history that are no
older than its span, and `Window.Follows.record` carries this over to the next observation.  A
window without observations follows every history of which nothing counts any more
(`follows_fresh`).
-/

namespace TrafficWatch

/-- An event and when it was observed. -/
structure Observation where
  event : Event
  time : Instant

/-- What has been observed, in order. -/
abbrev History := List Observation

namespace History

/-- The clock has not stepped back. -/
def Ordered (h : History) : Prop :=
  h.Pairwise fun a b => a.time ≤ b.time

/-- No observation is later than a time. -/
def Until (h : History) (now : Instant) : Prop :=
  ∀ o ∈ h, o.time ≤ now

/-- All observations are older than a span. -/
def Expired (h : History) (now : Instant) (span : Duration) : Prop :=
  ∀ o ∈ h, span < now - o.time

/-- The times of the events of some kind that are no older than a span. -/
def times (h : History) (kind : Event → Bool) (now : Instant) (span : Duration) : Timeline :=
  (h.filter fun o => kind o.event && decide (now - o.time ≤ span)).map (·.time)

theorem times_append (h₁ h₂ : History) (kind : Event → Bool) (now : Instant) (span : Duration) :
    times (h₁ ++ h₂) kind now span = h₁.times kind now span ++ h₂.times kind now span := by
  simp [times]

/-- What has expired does not count. -/
theorem times_of_expired {h : History} {now : Instant} {span : Duration} (hx : h.Expired now span)
    (kind : Event → Bool) : h.times kind now span = [] := by
  simp only [times, List.map_eq_nil_iff, List.filter_eq_nil_iff, Bool.and_eq_true,
    decide_eq_true_eq]
  rintro o ho ⟨-, hle⟩
  exact absurd (hx o ho) (Int.not_lt.mpr hle)

/-- What has expired stays so. -/
theorem Expired.mono {h : History} {t now : Instant} {long short : Duration} (hx : h.Expired t long)
    (hnow : t ≤ now) (hspan : short ≤ long) : h.Expired now short := fun o ho => by
  have := hx o ho
  lia

end History

/-! ### Timelines -/

namespace Timeline

/-- Of times in order, what is too old stands at the front. -/
theorem expire_eq_filter {times : Timeline} (h : times.Pairwise (· ≤ ·)) (now : Instant)
    (span : Duration) : times.expire now span = times.filter fun t => decide (now - t ≤ span) := by
  induction times with
  | nil => rfl
  | cons t rest ih =>
      obtain ⟨ht, hrest⟩ := List.pairwise_cons.mp h
      by_cases hold : span < now - t
      · have hdrop : Timeline.expire (t :: rest) now span = Timeline.expire rest now span :=
          List.dropWhile_cons_of_pos (decide_eq_true hold)
        have hlate : ¬ now - t ≤ span := Int.not_le.mpr hold
        rw [hdrop, ih hrest, List.filter_cons, if_neg (mt of_decide_eq_true hlate)]
      · have hkeep : Timeline.expire (t :: rest) now span = t :: rest :=
          List.dropWhile_cons_of_neg (mt of_decide_eq_true hold)
        rw [hkeep]
        -- the first one is young enough, and the later ones are younger
        refine (List.filter_eq_self.mpr fun u hu => ?_).symm
        rcases List.mem_cons.mp hu with rfl | hu
        · exact decide_eq_true (Int.not_lt.mp hold)
        · have := ht u hu
          exact decide_eq_true (by lia)

end Timeline

namespace History

theorem Ordered.times {h : History} (ho : h.Ordered) (kind : Event → Bool) (now : Instant)
    (span : Duration) : (h.times kind now span).Pairwise (· ≤ ·) :=
  (List.Pairwise.filter _ ho).map _ fun _ _ hle => hle

theorem Ordered.snoc {h : History} {o : Observation} (ho : h.Ordered) (hu : h.Until o.time) :
    Ordered (h ++ [o]) :=
  List.pairwise_append.mpr ⟨ho, List.pairwise_singleton _ _, fun a ha b hb => by
    cases List.mem_singleton.mp hb
    exact hu a ha⟩

theorem Until.snoc {h : History} {o : Observation} (hu : h.Until o.time) :
    Until (h ++ [o]) o.time :=
  List.forall_mem_append.mpr ⟨hu, List.forall_mem_singleton.mpr (Int.le_refl _)⟩

/-- What no longer counted at an earlier time does not count now. -/
theorem filter_times {t now : Instant} (hnow : t ≤ now) (h : History) (kind : Event → Bool)
    (span : Duration) :
    (h.times kind t span).filter (fun u => decide (now - u ≤ span)) = h.times kind now span := by
  simp only [times, List.filter_map, List.filter_filter]
  congr 1
  refine List.filter_congr fun o _ => ?_
  have himp : now - o.time ≤ span → t - o.time ≤ span := fun h => by lia
  by_cases hle : now - o.time ≤ span
  · rw [Function.comp_apply, decide_eq_true hle, decide_eq_true (himp hle), Bool.true_and]
  · rw [Function.comp_apply, decide_eq_false hle, Bool.false_and, Bool.and_false]

/-- **A timeline after one more observation.** -/
theorem expire_note {h : History} {t : Instant} {o : Observation} (ho : h.Ordered)
    (hu : h.Until o.time) (ht : t ≤ o.time) {span : Duration} (hspan : 0 ≤ span)
    (kind : Event → Bool) :
    ((h.times kind t span).note o.time (kind o.event)).expire o.time span =
      History.times (h ++ [o]) kind o.time span := by
  rw [times_append]
  cases hk : kind o.event
  · rw [Timeline.note, if_neg Bool.false_ne_true, Timeline.expire_eq_filter (ho.times kind t span),
      filter_times ht]
    simp [times, hk]
  · have hlast : (h.times kind t span ++ [o.time]).Pairwise (· ≤ ·) := by
      refine List.pairwise_append.mpr ⟨ho.times kind t span, List.pairwise_singleton _ _, ?_⟩
      intro u hu' v hv
      obtain ⟨p, hp, rfl⟩ := List.mem_map.mp hu'
      rw [List.mem_singleton.mp hv]
      exact hu p (List.mem_of_mem_filter hp)
    rw [Timeline.note, if_pos rfl, Timeline.expire_eq_filter hlast, List.filter_append,
      filter_times ht]
    simp [times, hk, hspan]

end History

/-! ### Windows -/

/-- A window with these spans keeps what counts of a history. -/
structure Window.Follows (w : Window) (h : History) (rpsSpan errorSpan : Duration) : Prop where
  rps : w.rpsSpan = rpsSpan
  error : w.errorSpan = errorSpan
  requests : w.requests = h.times (fun _ => true) w.lastSeen rpsSpan
  clientErrors : w.clientErrors = h.times Event.isClientError w.lastSeen errorSpan
  serverErrors : w.serverErrors = h.times Event.isServerError w.lastSeen errorSpan
  wafHits : w.wafHits = h.times Event.wafHit w.lastSeen errorSpan
  seen : h.Until w.lastSeen

namespace Window

/-- A window without observations, when nothing of the history counts any more. -/
theorem follows_fresh {h : History} {now : Instant} {rpsSpan errorSpan : Duration}
    (hrps : h.Expired now (max rpsSpan (.ofSeconds 1)))
    (herror : h.Expired now (max errorSpan (.ofSeconds 1))) (hu : h.Until now) :
    (fresh rpsSpan errorSpan now).Follows h (max rpsSpan (.ofSeconds 1))
      (max errorSpan (.ofSeconds 1)) where
  rps := rfl
  error := rfl
  requests := (History.times_of_expired hrps _).symm
  clientErrors := (History.times_of_expired herror _).symm
  serverErrors := (History.times_of_expired herror _).symm
  wafHits := (History.times_of_expired herror _).symm
  seen := hu

/-- **Recording an observation** keeps what counts of the history with that observation. -/
theorem Follows.record {w : Window} {h : History} {rpsSpan errorSpan : Duration}
    (hw : w.Follows h rpsSpan errorSpan) (ho : h.Ordered) {o : Observation}
    (hlater : w.lastSeen ≤ o.time) (hrps : 0 ≤ rpsSpan) (herror : 0 ≤ errorSpan) :
    (w.record o.event o.time).Follows (h ++ [o]) rpsSpan errorSpan := by
  have hu : h.Until o.time := fun p hp => Int.le_trans (hw.seen p hp) hlater
  refine ⟨hw.rps, hw.error, ?_, ?_, ?_, ?_, hu.snoc⟩
  · change (w.requests.note _ _).expire _ w.rpsSpan = _
    rw [hw.requests, hw.rps]
    exact History.expire_note ho hu hlater hrps fun _ => true
  · change (w.clientErrors.note _ _).expire _ w.errorSpan = _
    rw [hw.clientErrors, hw.error]
    exact History.expire_note ho hu hlater herror Event.isClientError
  · change (w.serverErrors.note _ _).expire _ w.errorSpan = _
    rw [hw.serverErrors, hw.error]
    exact History.expire_note ho hu hlater herror Event.isServerError
  · change (w.wafHits.note _ _).expire _ w.errorSpan = _
    rw [hw.wafHits, hw.error]
    exact History.expire_note ho hu hlater herror Event.wafHit

end Window

end TrafficWatch
