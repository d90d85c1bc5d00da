import TrafficWatch.Event.Basic

/-!
# Event — Queue

The queue between the gateway and the detectors.  It never makes anyone wait: when it is full the
oldest event is shed for the one that arrives, so what is in the queue is always the newest of what
has arrived, in order.  Once the queue is cancelled nothing is given out any more.
-/

namespace TrafficWatch

/-- Events that wait for the detectors, oldest first. -/
structure EventQueue where
  capacity : Nat
  waiting : List Event
  /-- How many events have arrived. -/
  enqueued : Nat
  /-- How many events have been shed. -/
  dropped : Nat
  isCancelled : Bool

/-- What the queue gives to one who asks once. -/
inductive Offer where
  | event (e : Event)
  /-- There is nothing yet. -/
  | waiting
  /-- There will be nothing any more. -/
  | finished

namespace EventQueue

/-- A queue without events; it has room for one at least. -/
def empty (capacity : Nat) : EventQueue :=
  ⟨max capacity 1, [], 0, 0, false⟩

/-- The number of events that wait. -/
def size (q : EventQueue) : Nat :=
  q.waiting.length

/-- Whether there is no room for another event. -/
def isFull (q : EventQueue) : Bool :=
  q.capacity ≤ q.size

/-- The queue with one more event, and whether the oldest one was shed for it. -/
def enqueue (q : EventQueue) (e : Event) : Bool × EventQueue :=
  let kept := if q.isFull then q.waiting.drop 1 else q.waiting
  (q.isFull, { q with
    waiting := kept ++ [e]
    enqueued := q.enqueued + 1
    dropped := if q.isFull then q.dropped + 1 else q.dropped })

/-- The queue after events have arrived one by one. -/
def seed (q : EventQueue) (events : List Event) : EventQueue :=
  events.foldl (fun q e => (q.enqueue e).2) q

/-- The queue gives out nothing from now on. -/
def cancel (q : EventQueue) : EventQueue :=
  { q with isCancelled := true }

/-- What the queue offers, and the queue after it. -/
def dequeue (q : EventQueue) : Offer × EventQueue :=
  if q.isCancelled then (.finished, q)
  else
    match q.waiting with
    | [] => (.waiting, q)
    | e :: rest => (.event e, { q with waiting := rest })

end EventQueue

/-- A reader of all events of a queue, in order.  It has an end, after which it offers nothing. -/
structure EventStream where
  queue : EventQueue
  hasEnded : Bool

namespace EventStream

/-- A reader that has read nothing. -/
def ofQueue (q : EventQueue) : EventStream := ⟨q, false⟩

/-- What the reader offers next, nothing after its end. -/
def next (s : EventStream) : Option Offer × EventStream :=
  if s.hasEnded then (none, s)
  else
    let (offer, queue) := s.queue.dequeue
    let hasEnded := match offer with
      | .finished => true
      | _ => false
    (some offer, ⟨queue, hasEnded⟩)

end EventStream

end TrafficWatch
