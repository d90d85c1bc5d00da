import Mathlib.Data.List.Basic
import TrafficWatch.Event.Queue

/-!
# Event — Queue

Where the events have gone that have arrived at a queue.  Events leave a queue from the front only,
and each in one of two ways: it is delivered to someone who asked, or it is shed for one that
arrives (`Departure`).  So what has arrived is what has left, in the same order, followed by what
waits.

* `EventQueue.Flow`: this law between any two moments.  Every step obeys it
  (`EventStream.flow_serve`), and flows that follow each other make one (`EventQueue.Flow.trans`).
* `EventQueue.HasRoom`: a queue is never beyond its capacity, whence an arrival sheds the oldest
  event, and only when the queue is full (`EventQueue.HasRoom.admits`).

`EventStream.accounts` puts both together for every run from the start.
-/

namespace TrafficWatch

/-! ### Steps and departures -/

/-- What can be asked of a queue, and of a reader of all its events. -/
inductive QueueStep where
  | enqueue (e : Event)
  | seed (events : List Event)
  | dequeue
  /-- The reader asks for the next event. -/
  | next
  | cancel

/-- The events that arrive with a step. -/
def QueueStep.arrivals : QueueStep → List Event
  | enqueue e => [e]
  | seed events => events
  | dequeue | next | cancel => []

/-- How an event has left a queue. -/
inductive Departure where
  | delivered (e : Event)
  | shed (e : Event)

namespace Departure

/-- The event that has left. -/
def event : Departure → Event
  | delivered e | shed e => e

/-- The event, if it was delivered. -/
def delivered? : Departure → Option Event
  | delivered e => some e
  | shed _ => none

/-- The event, if it was shed. -/
def shed? : Departure → Option Event
  | delivered _ => none
  | shed e => some e

end Departure

/-- The event that is offered, if it is one. -/
def Offer.event? : Offer → Option Event
  | event e => some e
  | waiting | finished => none

/-- The events that are shed when events arrive one by one: the oldest one whenever there is no
room. -/
def EventQueue.shedBy (q : EventQueue) : List Event → List Event
  | [] => []
  | e :: rest => (if (q.enqueue e).1 then q.waiting.take 1 else []) ++ (q.enqueue e).2.shedBy rest

namespace EventStream

/-- A queue and its reader after a step. -/
def serve (s : EventStream) : QueueStep → EventStream
  | .enqueue e => { s with queue := (s.queue.enqueue e).2 }
  | .seed events => { s with queue := s.queue.seed events }
  | .dequeue => { s with queue := s.queue.dequeue.2 }
  | .next => s.next.2
  | .cancel => { s with queue := s.queue.cancel }

/-- The events that leave the queue in a step. -/
def departures (s : EventStream) : QueueStep → List Departure
  | .enqueue e => (s.queue.shedBy [e]).map .shed
  | .seed events => (s.queue.shedBy events).map .shed
  | .dequeue => s.queue.dequeue.1.event?.toList.map .delivered
  | .next => (s.next.1.bind Offer.event?).toList.map .delivered
  | .cancel => []

/-- A queue and its reader after steps. -/
def serveAll (s : EventStream) (steps : List QueueStep) : EventStream :=
  steps.foldl serve s

/-- The events that leave the queue in steps, in the order in which they leave. -/
def departuresAll (s : EventStream) : List QueueStep → List Departure
  | [] => []
  | step :: rest => s.departures step ++ (s.serve step).departuresAll rest

end EventStream

/-! ### The flow of events -/

namespace EventQueue

/-- **What has come and gone between two moments**: what waited and what has arrived is what has
left, in the same order, followed by what waits.  The counts have gone up accordingly. -/
structure Flow (before : EventQueue) (arrived : List Event) (departed : List Departure)
    (after : EventQueue) : Prop where
  events : before.waiting ++ arrived = departed.map Departure.event ++ after.waiting
  enqueued : after.enqueued = before.enqueued + arrived.length
  dropped : after.dropped = before.dropped + (departed.filterMap Departure.shed?).length
  capacity : after.capacity = before.capacity
  cancelled : before.isCancelled = true → after.isCancelled = true

theorem Flow.refl (q : EventQueue) : Flow q [] [] q :=
  ⟨List.append_nil _, rfl, rfl, rfl, id⟩

theorem Flow.trans {q₁ q₂ q₃ : EventQueue} {arrived₁ arrived₂ : List Event}
    {departed₁ departed₂ : List Departure} (h₁ : Flow q₁ arrived₁ departed₁ q₂)
    (h₂ : Flow q₂ arrived₂ departed₂ q₃) :
    Flow q₁ (arrived₁ ++ arrived₂) (departed₁ ++ departed₂) q₃ where
  events := by
    rw [← List.append_assoc, h₁.events, List.append_assoc, h₂.events, List.map_append,
      List.append_assoc]
  enqueued := by rw [h₂.enqueued, h₁.enqueued, List.length_append, Nat.add_assoc]
  dropped := by
    rw [h₂.dropped, h₁.dropped, List.filterMap_append, List.length_append, Nat.add_assoc]
  capacity := h₂.capacity.trans h₁.capacity
  cancelled := fun h => h₂.cancelled (h₁.cancelled h)

/-! ### Arrivals -/

/-- There is room for one event at least, and no more wait than there is room for. -/
structure HasRoom (q : EventQueue) : Prop where
  pos : 0 < q.capacity
  size : q.size ≤ q.capacity

variable {q : EventQueue}

theorem hasRoom_empty (capacity : Nat) : (empty capacity).HasRoom :=
  ⟨Nat.lt_of_lt_of_le Nat.one_pos (Nat.le_max_right _ _), Nat.zero_le _⟩

/-- A queue is full when as many events wait as there is room for. -/
theorem HasRoom.isFull_iff (h : q.HasRoom) : q.isFull = true ↔ q.size = q.capacity := by
  have := h.size
  rw [isFull, decide_eq_true_iff]
  omega

/-- Something waits in a queue that is full. -/
theorem HasRoom.exists_oldest (h : q.HasRoom) (hfull : q.isFull = true) :
    ∃ oldest later, q.waiting = oldest :: later := by
  have hsize := h.isFull_iff.mp hfull
  refine List.exists_cons_of_ne_nil fun hnil => ?_
  have hpos := h.pos
  rw [← hsize, EventQueue.size, hnil] at hpos
  exact Nat.lt_irrefl 0 hpos

/-- **What an arrival does** to a queue with the given room. -/
structure Admits (room : Nat) (q : EventQueue) (e : Event) : Prop where
  /-- The answer tells whether the queue was full. -/
  answer : (q.enqueue e).1 = true ↔ q.size = room
  /-- The oldest event, and no other one, makes room. -/
  full : (q.enqueue e).1 = true → ∃ oldest later, q.waiting = oldest :: later ∧
    (q.enqueue e).2.waiting = later ++ [e] ∧ (q.enqueue e).2.dropped = q.dropped + 1
  /-- Otherwise nothing is shed. -/
  roomy : (q.enqueue e).1 = false →
    (q.enqueue e).2.waiting = q.waiting ++ [e] ∧ (q.enqueue e).2.dropped = q.dropped

theorem HasRoom.admits (h : q.HasRoom) (e : Event) : Admits q.capacity q e where
  answer := h.isFull_iff
  full := fun hfull => by
    change q.isFull = true at hfull
    obtain ⟨oldest, later, hwaiting⟩ := h.exists_oldest hfull
    exact ⟨oldest, later, hwaiting, by simp [enqueue, hfull, hwaiting], by simp [enqueue, hfull]⟩
  roomy := fun hroomy => by
    change q.isFull = false at hroomy
    exact ⟨by simp [enqueue, hroomy], by simp [enqueue, hroomy]⟩

theorem HasRoom.enqueue (h : q.HasRoom) (e : Event) : (q.enqueue e).2.HasRoom := by
  refine ⟨h.pos, ?_⟩
  change (q.enqueue e).2.waiting.length ≤ q.capacity
  have hsize : q.waiting.length ≤ q.capacity := h.size
  cases hanswer : (q.enqueue e).1 with
  | true =>
      obtain ⟨oldest, later, hwaiting, hafter, -⟩ := (h.admits e).full hanswer
      rw [hafter, List.length_append, List.length_singleton]
      rwa [hwaiting, List.length_cons] at hsize
  | false =>
      have hne : q.waiting.length ≠ q.capacity := fun heq =>
        Bool.false_ne_true (hanswer.symm.trans ((h.admits e).answer.mpr heq))
      rw [((h.admits e).roomy hanswer).1, List.length_append, List.length_singleton]
      omega

/-- **An arrival** sheds the oldest event or none. -/
theorem HasRoom.flow_enqueue (h : q.HasRoom) (e : Event) :
    Flow q [e] ((q.shedBy [e]).map .shed) (q.enqueue e).2 := by
  simp only [shedBy, List.append_nil]
  cases hanswer : (q.enqueue e).1 with
  | true =>
      obtain ⟨oldest, later, hwaiting, hafter, hdropped⟩ := (h.admits e).full hanswer
      refine ⟨?_, rfl, ?_, rfl, id⟩
      · simp [hwaiting, hafter, Departure.event]
      · simp [hwaiting, hdropped, Departure.shed?]
  | false =>
      obtain ⟨hafter, hdropped⟩ := (h.admits e).roomy hanswer
      exact ⟨by simp [hafter], rfl, by simp [hdropped], rfl, id⟩

theorem HasRoom.seed (h : q.HasRoom) (events : List Event) : (q.seed events).HasRoom := by
  induction events generalizing q with
  | nil => exact h
  | cons e rest ih => exact ih (h.enqueue e)

theorem HasRoom.flow_seed (h : q.HasRoom) (events : List Event) :
    Flow q events ((q.shedBy events).map .shed) (q.seed events) := by
  induction events generalizing q with
  | nil => exact .refl q
  | cons e rest ih =>
      have hflow := (h.flow_enqueue e).trans (ih (h.enqueue e))
      rwa [← List.map_append, shedBy, shedBy, List.append_nil] at hflow

/-! ### Deliveries -/

/-- One who asks is given the oldest event, if anything. -/
theorem flow_dequeue (q : EventQueue) :
    Flow q [] (q.dequeue.1.event?.toList.map .delivered) q.dequeue.2 := by
  unfold dequeue
  split
  · exact .refl q
  · cases hwaiting : q.waiting with
    | nil => exact .refl q
    | cons e rest => exact ⟨(List.append_nil _).trans hwaiting, rfl, rfl, rfl, id⟩

theorem HasRoom.dequeue (h : q.HasRoom) : q.dequeue.2.HasRoom := by
  unfold EventQueue.dequeue
  split
  · exact h
  · cases hwaiting : q.waiting with
    | nil => exact h
    | cons e rest =>
        have hsize := h.size
        rw [EventQueue.size, hwaiting] at hsize
        exact ⟨h.pos, Nat.le_of_succ_le hsize⟩

/-- Once a queue is cancelled it gives out nothing, whatever waits. -/
theorem dequeue_of_isCancelled (h : q.isCancelled = true) : q.dequeue = (.finished, q) := by
  rw [dequeue, if_pos h]

end EventQueue

/-! ### Runs -/

namespace EventStream

variable {s : EventStream}

/-- The reader takes from the queue what anyone would who asked, and nothing after its end. -/
theorem next_spec (s : EventStream) :
    s.next = (none, s) ∨
      s.next.1 = some s.queue.dequeue.1 ∧ s.next.2.queue = s.queue.dequeue.2 := by
  unfold next
  split
  · exact .inl rfl
  · exact .inr ⟨rfl, rfl⟩

theorem hasRoom_serve (h : s.queue.HasRoom) (step : QueueStep) : (s.serve step).queue.HasRoom := by
  cases step with
  | enqueue e => exact h.enqueue e
  | seed events => exact h.seed events
  | dequeue => exact h.dequeue
  | next =>
      rcases s.next_spec with hend | ⟨-, hqueue⟩
      · rw [serve, hend]
        exact h
      · rw [serve, hqueue]
        exact h.dequeue
  | cancel => exact ⟨h.pos, h.size⟩

/-- **Every step is a flow.** -/
theorem flow_serve (h : s.queue.HasRoom) (step : QueueStep) :
    EventQueue.Flow s.queue step.arrivals (s.departures step) (s.serve step).queue := by
  cases step with
  | enqueue e => exact h.flow_enqueue e
  | seed events => exact h.flow_seed events
  | dequeue => exact s.queue.flow_dequeue
  | next =>
      rcases s.next_spec with hend | ⟨hoffer, hqueue⟩
      · rw [serve, departures, hend]
        exact .refl s.queue
      · rw [serve, departures, hoffer, hqueue]
        exact s.queue.flow_dequeue
  | cancel => exact ⟨List.append_nil _, rfl, rfl, rfl, fun _ => rfl⟩

/-- **Every run is a flow**, and leaves the queue with room. -/
theorem flow_serveAll (h : s.queue.HasRoom) (steps : List QueueStep) :
    EventQueue.Flow s.queue (steps.flatMap QueueStep.arrivals) (s.departuresAll steps)
      (s.serveAll steps).queue ∧ (s.serveAll steps).queue.HasRoom := by
  induction steps generalizing s with
  | nil => exact ⟨.refl s.queue, h⟩
  | cons step rest ih =>
      obtain ⟨hflow, hroom⟩ := ih (hasRoom_serve h step)
      exact ⟨(flow_serve h step).trans hflow, hroom⟩

/-- A queue that was cancelled on the way stays so. -/
theorem isCancelled_serveAll (h : s.queue.HasRoom) {steps : List QueueStep}
    (hcancel : .cancel ∈ steps) : (s.serveAll steps).queue.isCancelled = true := by
  induction steps generalizing s with
  | nil => exact absurd hcancel List.not_mem_nil
  | cons step rest ih =>
      have hstep := hasRoom_serve h step
      rcases List.mem_cons.mp hcancel with rfl | hrest
      · exact (flow_serveAll hstep rest).1.cancelled rfl
      · exact ih hstep hrest

/-! ### The account -/

/-- Nobody is given anything any more, and asking changes nothing. -/
structure IsOver (s : EventStream) : Prop where
  dequeue : s.queue.dequeue = (.finished, s.queue)
  next : (s.next.1 = some .finished ∨ s.next.1 = none) ∧ s.next.2.queue = s.queue

theorem isOver_of_isCancelled (h : s.queue.isCancelled = true) : s.IsOver := by
  have hdequeue := EventQueue.dequeue_of_isCancelled h
  refine ⟨hdequeue, ?_⟩
  rcases s.next_spec with hend | ⟨hoffer, hqueue⟩
  · rw [hend]
    exact ⟨.inr rfl, rfl⟩
  · rw [hoffer, hqueue, hdequeue]
    exact ⟨.inl rfl, rfl⟩

/-- **Where the events have gone** that have arrived at a queue with the given room. -/
structure Accounts (room : Nat) (arrived : List Event) (departed : List Departure)
    (q : EventQueue) : Prop where
  /-- Every event has left once, or waits, and those that have left came first. -/
  events : arrived = departed.map Departure.event ++ q.waiting
  waiting : q.waiting <:+ arrived
  size : q.size ≤ room
  /-- What is delivered is delivered in the order of arrival. -/
  delivered : (departed.filterMap Departure.delivered?).Sublist arrived
  enqueued : q.enqueued = arrived.length
  dropped : q.dropped = (departed.filterMap Departure.shed?).length
  balance : q.enqueued = (departed.filterMap Departure.delivered?).length + q.dropped + q.size

theorem sublist_delivered (departed : List Departure) :
    (departed.filterMap Departure.delivered?).Sublist (departed.map Departure.event) := by
  induction departed with
  | nil => exact .slnil
  | cons d rest ih =>
      cases d with
      | delivered e => exact ih.cons_cons e
      | shed e => exact ih.cons e

/-- An event that has left was delivered or shed. -/
theorem length_departed (departed : List Departure) :
    departed.length = (departed.filterMap Departure.delivered?).length +
      (departed.filterMap Departure.shed?).length := by
  induction departed with
  | nil => rfl
  | cons d rest ih =>
      cases d <;> simp [List.filterMap_cons, Departure.delivered?, Departure.shed?, ih] <;> omega

/-- What has come and gone since the start accounts for all events. -/
theorem accounts_of_flow {capacity : Nat} {arrived : List Event} {departed : List Departure}
    {q : EventQueue} (h : EventQueue.Flow (.empty capacity) arrived departed q) (hroom : q.HasRoom) :
    Accounts (max capacity 1) arrived departed q := by
  have hevents : arrived = departed.map Departure.event ++ q.waiting := h.events
  have henqueued : q.enqueued = arrived.length := h.enqueued.trans (Nat.zero_add _)
  have hdropped : q.dropped = (departed.filterMap Departure.shed?).length :=
    h.dropped.trans (Nat.zero_add _)
  refine ⟨hevents, ⟨_, hevents.symm⟩, Nat.le_trans hroom.size (Nat.le_of_eq h.capacity), ?_,
    henqueued, hdropped, ?_⟩
  · rw [hevents]
    exact (sublist_delivered departed).trans (List.sublist_append_left _ _)
  · rw [henqueued, hevents, List.length_append, List.length_map, length_departed, hdropped]
    rfl

/-- **Every event is accounted for.** Let events arrive at a queue of any capacity and be asked for,
by anyone and by a reader of all of them, in any order, and let the queue be cancelled at any moment.
Then every event that has arrived was delivered, or shed, or waits, each exactly once and in order;
the next one to arrive sheds the oldest event that waits, if the queue is full; and after the
cancellation nothing is given out and nothing changes. -/
theorem every_event_accounted (capacity : Nat) (steps : List QueueStep) :
    let start := ofQueue (.empty capacity)
    let s := start.serveAll steps
    Accounts (max capacity 1) (steps.flatMap QueueStep.arrivals) (start.departuresAll steps)
        s.queue ∧
      (∀ e, EventQueue.Admits (max capacity 1) s.queue e) ∧
      (.cancel ∈ steps → s.IsOver) := by
  intro start s
  have hstart : start.queue.HasRoom := EventQueue.hasRoom_empty capacity
  obtain ⟨hflow, hroom⟩ := flow_serveAll hstart steps
  refine ⟨accounts_of_flow hflow hroom, fun e => ?_, fun hcancel => ?_⟩
  · have hadmits := hroom.admits e
    rwa [hflow.capacity] at hadmits
  · exact isOver_of_isCancelled (isCancelled_serveAll hstart hcancel)

end EventStream

end TrafficWatch
