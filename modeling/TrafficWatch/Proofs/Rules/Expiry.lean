import TrafficWatch.Proofs.Rules.History

/-!
# Rules — Expiry

What a window still counts when the clock is set back.  A window drops times from the front for as
long as they are too old, so it relies on its times standing in order.  A clock that steps back breaks
that order: a time that is too old stays while one before it does not have to go, and is counted.

There is no other way for a time to be counted too long (`Window.outdated_behind_later`): it was
recorded after an event of the same kind whose later time still counts.  On a clock that never steps
back there is no such time.

All counts of a window are kept in the same manner, each with events of its own kind and its own span,
so everything is said of one of them (`Counter`).
-/

namespace TrafficWatch

/-- One count of a window: the events that it counts, their times, and how long they count. -/
structure Counter where
  kind : Event → Bool
  times : Timeline
  span : Duration

namespace Counter

/-- The count after an event. -/
def record (c : Counter) (o : Observation) : Counter :=
  { c with times := (c.times.note o.time (c.kind o.event)).expire o.time c.span }

/-- The count after events, one after the other. -/
def recordAll (c : Counter) (h : History) : Counter :=
  h.foldl record c

/-- A time is hidden in a history: an event was observed at that time after another one whose time is
later and still counts. -/
def Hides (c : Counter) (h : History) (now u : Instant) : Prop :=
  ∃ p q : Observation, [p, q].Sublist h ∧ c.kind p.event = true ∧ c.kind q.event = true ∧
    q.time = u ∧ u < p.time ∧ now - p.time ≤ c.span

end Counter

namespace Window

/-- The counts of a window. -/
def counters (w : Window) : List Counter :=
  [⟨fun _ => true, w.requests, w.rpsSpan⟩, ⟨Event.isClientError, w.clientErrors, w.errorSpan⟩,
    ⟨Event.isServerError, w.serverErrors, w.errorSpan⟩, ⟨Event.wafHit, w.wafHits, w.errorSpan⟩]

/-- The window after events, one after the other. -/
def recordAll (w : Window) (h : History) : Window :=
  h.foldl (fun w o => w.record o.event o.time) w

theorem counters_record (w : Window) (o : Observation) :
    (w.record o.event o.time).counters = w.counters.map (·.record o) :=
  rfl

/-- Each count is kept on its own. -/
theorem counters_recordAll (w : Window) (h : History) :
    (w.recordAll h).counters = w.counters.map (·.recordAll h) := by
  induction h generalizing w with
  | nil => exact (List.map_id _).symm
  | cons o rest ih =>
    calc
      ((w.record o.event o.time).recordAll rest).counters
          = (w.counters.map (·.record o)).map (·.recordAll rest) := by rw [ih, counters_record]
      _ = w.counters.map (·.recordAll (o :: rest)) := List.map_map

end Window

namespace Counter

variable {c : Counter} {h : History}

theorem recordAll_snoc (c : Counter) (h : History) (o : Observation) :
    c.recordAll (h ++ [o]) = (c.recordAll h).record o :=
  List.foldl_append

theorem kind_recordAll (c : Counter) (h : History) : (c.recordAll h).kind = c.kind := by
  induction h generalizing c with
  | nil => rfl
  | cons o rest ih => exact ih (c.record o)

theorem span_recordAll (c : Counter) (h : History) : (c.recordAll h).span = c.span := by
  induction h generalizing c with
  | nil => rfl
  | cons o rest ih => exact ih (c.record o)

/-- What is counted are times of events of the kind, in the order in which they were observed. -/
theorem times_record {before : History}
    (hc : c.times.Sublist ((before.filter fun o => c.kind o.event).map (·.time)))
    (o : Observation) :
    (c.record o).times.Sublist (((before ++ [o]).filter fun o => c.kind o.event).map (·.time)) := by
  refine (List.dropWhile_sublist _).trans ?_
  rw [List.filter_append, List.map_append]
  cases hkind : c.kind o.event with
  | true =>
    have hlast : [o].filter (fun o => c.kind o.event) = [o] := List.filter_cons_of_pos hkind
    rw [Timeline.note, if_pos rfl, hlast]
    exact hc.append (List.Sublist.refl _)
  | false =>
    rw [Timeline.note, if_neg Bool.false_ne_true]
    exact hc.trans (List.sublist_append_left _ _)

theorem times_recordAll (hempty : c.times = []) (h : History) :
    (c.recordAll h).times.Sublist ((h.filter fun o => c.kind o.event).map (·.time)) := by
  induction h using List.reverseRecOn with
  | nil =>
    rw [recordAll, List.foldl_nil, hempty]
    exact List.nil_sublist _
  | append_singleton h o ih =>
    rw [← kind_recordAll c h] at ih
    have hrecord := times_record ih o
    rwa [kind_recordAll, ← recordAll_snoc] at hrecord

/-- What comes first after an event is not too old. -/
theorem head_record {o : Observation} {first : Instant} {rest : Timeline}
    (h : (c.record o).times = first :: rest) : o.time - first ≤ c.span := by
  have hhead := List.head?_dropWhile_not (fun t => decide (c.span < o.time - t))
    (c.times.note o.time (c.kind o.event))
  have htimes : (c.times.note o.time (c.kind o.event)).dropWhile
      (fun t => decide (c.span < o.time - t)) = first :: rest := h
  rw [htimes] at hhead
  exact Int.not_lt.mp (of_decide_eq_false (by simpa using hhead))

/-- Two times in a row that were counted belong to two events, in the same order. -/
theorem exists_observations {u v : Instant} {kind : Event → Bool}
    (h' : [v, u].Sublist ((h.filter fun o => kind o.event).map (·.time))) :
    ∃ p q : Observation, [p, q].Sublist h ∧ kind p.event = true ∧ kind q.event = true ∧
      p.time = v ∧ q.time = u := by
  obtain ⟨l, hl, hmap⟩ := List.sublist_map_iff.mp h'
  obtain ⟨p, rest, rfl, rfl, hrest⟩ := List.map_eq_cons_iff.mp hmap.symm
  obtain ⟨q, rest, rfl, rfl, hnil⟩ := List.map_eq_cons_iff.mp hrest
  obtain rfl := List.map_eq_nil_iff.mp hnil
  have hkind : ∀ o ∈ [p, q], kind o.event = true := fun o ho =>
    (List.mem_filter.mp (hl.subset ho)).2
  exact ⟨p, q, hl.trans List.filter_sublist, hkind p List.mem_cons_self,
    hkind q (List.mem_cons_of_mem _ List.mem_cons_self), rfl, rfl⟩

/-- **What is counted too long is hidden.** -/
theorem hides_of_outdated (hempty : c.times = []) (h : History) (o : Observation) {u : Instant}
    (hu : u ∈ (c.recordAll (h ++ [o])).times) (hold : c.span < o.time - u) :
    c.Hides (h ++ [o]) o.time u := by
  have hsublist := times_recordAll hempty (h ++ [o])
  rw [recordAll_snoc] at hu hsublist
  cases htimes : ((c.recordAll h).record o).times with
  | nil =>
    rw [htimes] at hu
    cases hu
  | cons first rest =>
    have hfirst := head_record htimes
    rw [span_recordAll] at hfirst
    rw [htimes] at hu hsublist
    rcases List.mem_cons.mp hu with rfl | hu
    · exact absurd hold (Int.not_lt.mpr hfirst)
    · -- the first time may stay, so it is later than the one behind it
      have hpair := ((List.singleton_sublist.mpr hu).cons_cons first).trans hsublist
      obtain ⟨p, q, hpq, hp, hq, rfl, rfl⟩ := exists_observations hpair
      exact ⟨p, q, hpq, hp, hq, rfl, by lia, hfirst⟩

/-- On a clock that never steps back nothing is hidden. -/
theorem not_hides (hordered : h.Ordered) (now u : Instant) : ¬ c.Hides h now u := by
  rintro ⟨p, q, hpq, -, -, rfl, hlater, -⟩
  have hle := (List.pairwise_cons.mp (hordered.sublist hpq)).1 q List.mem_cons_self
  exact absurd hle (Int.not_le.mpr hlater)

end Counter

namespace Window

/-- **A time is counted too long only behind a later one.** Let a new window record any events, on a
clock that moves as it likes.  Right after an event, every time that is still counted though it is
older than its span was recorded after another event of the kind whose time is later and not too old.
So on a clock that never steps back, every count is of events inside its span. -/
theorem outdated_behind_later (rpsSpan errorSpan : Duration) (made : Instant) (h : History)
    (o : Observation) :
    let w := (fresh rpsSpan errorSpan made).recordAll (h ++ [o])
    w.counters.map (·.span) = [max rpsSpan (.ofSeconds 1), max errorSpan (.ofSeconds 1),
        max errorSpan (.ofSeconds 1), max errorSpan (.ofSeconds 1)] ∧
      ∀ c ∈ w.counters,
        (∀ u ∈ c.times, c.span < o.time - u → c.Hides (h ++ [o]) o.time u) ∧
          (History.Ordered (h ++ [o]) → ∀ u ∈ c.times, o.time - u ≤ c.span) := by
  intro w
  have hcounters : w.counters = (fresh rpsSpan errorSpan made).counters.map (·.recordAll (h ++ [o])) :=
    counters_recordAll _ _
  rw [hcounters]
  refine ⟨?_, fun c hc => ?_⟩
  · have hspan : (Counter.span ∘ fun c => c.recordAll (h ++ [o])) = Counter.span :=
      funext fun c => c.span_recordAll (h ++ [o])
    rw [List.map_map]
    exact congrArg (List.map · (fresh rpsSpan errorSpan made).counters) hspan
  · obtain ⟨c₀, hc₀, rfl⟩ := List.mem_map.mp hc
    have hempty : c₀.times = [] := by
      simp only [counters, fresh, List.mem_cons, List.not_mem_nil, or_false] at hc₀
      rcases hc₀ with rfl | rfl | rfl | rfl <;> rfl
    have hhides : ∀ u ∈ (c₀.recordAll (h ++ [o])).times, c₀.span < o.time - u →
        c₀.Hides (h ++ [o]) o.time u := fun u hu hold => Counter.hides_of_outdated hempty h o hu hold
    simp only [Counter.Hides, Counter.kind_recordAll, Counter.span_recordAll] at hhides ⊢
    refine ⟨hhides, fun hordered u hu => Int.not_lt.mp fun hold => ?_⟩
    exact Counter.not_hides hordered o.time u (hhides u hu hold)

/-- A request that was answered at some second. -/
def answered (status : UInt16) (second : Int) : Observation :=
  ⟨⟨some "alice", 1.0, status, false, false, "GET", "/", 3.0⟩, second * 1000000000⟩

/-- What a window that looks back for a minute keeps of two requests that were not found, the second on
a clock that has been set back by fifty seconds, and one that was answered sixty-two seconds after the
second by the clock. -/
def afterSetBack : Window :=
  (fresh (.ofSeconds 1) (.ofSeconds 60) 0).recordAll
    ([answered 404 100, answered 404 50] ++ [answered 200 112])

/-- The error of sixty-two seconds ago stands behind the one that the clock puts twelve seconds ago. -/
theorem outdated_behind_later_setBack :
    ∃ c ∈ afterSetBack.counters, 50000000000 ∈ c.times ∧ c.span < 112000000000 - 50000000000 ∧
      c.Hides ([answered 404 100, answered 404 50] ++ [answered 200 112]) 112000000000 50000000000 := by
  obtain ⟨-, hcounters⟩ := outdated_behind_later (.ofSeconds 1) (.ofSeconds 60) 0
    [answered 404 100, answered 404 50] (answered 200 112)
  have hc : (⟨Event.isClientError, afterSetBack.clientErrors, afterSetBack.errorSpan⟩ : Counter) ∈
      afterSetBack.counters := List.mem_cons_of_mem _ List.mem_cons_self
  have hu : (50000000000 : Instant) ∈ afterSetBack.clientErrors := by decide +kernel
  have hold : afterSetBack.errorSpan < 112000000000 - 50000000000 := by decide +kernel
  exact ⟨_, hc, hu, hold, (hcounters _ hc).1 _ hu hold⟩

/-- **A clock that is set back has errors counted too long.** In the minute before the last request
there was one error, and two are counted. -/
theorem outdated_after_setBack :
    (¬ ∀ c ∈ afterSetBack.counters, ∀ u ∈ c.times, 112000000000 - u ≤ c.span) ∧
      afterSetBack.lastSeen = 112000000000 ∧ afterSetBack.errorSpan = 60000000000 ∧
      afterSetBack.clientErrors = [100000000000, 50000000000] ∧ afterSetBack.counts.clientErrors = 2 :=
  ⟨by decide +kernel, by decide +kernel, by decide +kernel, by decide +kernel, by decide +kernel⟩

end Window

end TrafficWatch
