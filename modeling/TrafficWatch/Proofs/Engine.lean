import TrafficWatch.Engine
import TrafficWatch.Proofs.Pipeline
import TrafficWatch.Proofs.Sequence

/-!
# Engine

The books of an engine at work.  What is found is written down three times: anomalies wait in the
ledger until someone drains them, the ledger counts them, and so do the metrics.

* `Engine.Books`: the books in terms of what was drained, what was found and how many events were
  judged.  Judging an event (`Engine.Books.judge`) and a training (`Engine.Books.train`) keep them.
* `Chronicle`: an engine and what has happened to it.  Every step leaves the engine as the chronicle
  has it (`Chronicle.Follows.next`), so every run from the start does (`Chronicle.follows_run`).
* `Chronicle.Balances`: what this says of the books, and of an engine that stops
  (`Chronicle.books_balance`).

What an engine does between two moments of its own clock is such a run
(`Chronicle.engine_run_settle`, `Chronicle.engine_run_nextCycle`, `Chronicle.engine_run_replay`).
-/

namespace TrafficWatch

/-! ### Books -/

namespace Engine

/-- **The books of an engine**: what the ledger, the metrics and the engine have written down. -/
structure Books (g : Engine) (drained found : List Anomaly) (judged shed : Nat) : Prop where
  isMeasured : g.pipeline.isMeasured = true
  ledger : g.pipeline.ledger.Keeps drained found
  observed : g.pipeline.ledger.observed = judged
  measured : g.pipeline.metrics.observed = judged
  processed : g.processed = judged
  anomalies : ∀ reason, g.pipeline.metrics.anomalies.count reason =
    found.countP fun a => decide (a.reason = reason)
  dropped : g.pipeline.metrics.dropped = shed

/-- An engine to which nothing has happened. -/
structure IsNew (g : Engine) (capacity : Nat) : Prop where
  queue : g.pipeline.queue = .empty capacity
  ledger : g.pipeline.ledger = .empty
  isMeasured : g.pipeline.isMeasured = true
  observed : g.pipeline.metrics.observed = 0
  dropped : g.pipeline.metrics.dropped = 0
  anomalies : ∀ reason, g.pipeline.metrics.anomalies.count reason = 0
  processed : g.processed = 0

/-- An engine starts as a new one. -/
theorem isNew_of_start {settings : Deployment} {archive : Archive} {now : Instant} {g : Engine}
    (h : start settings archive now = .ok g) : g.IsNew settings.queueCapacity := by
  obtain ⟨p, hp, h⟩ := bind_eq_ok h
  cases h
  obtain ⟨⟨d, archive', metrics⟩, hdetector, hp⟩ := bind_eq_ok hp
  cases hp
  obtain ⟨hobserved, hdropped, hanomalies⟩ :=
    Pipeline.countsAlike_of_hears (Detector.hears_of_ofSettings hdetector)
  refine ⟨rfl, rfl, rfl, hobserved, hdropped, fun reason => ?_, rfl⟩
  exact congrArg (Tally.count · reason) hanomalies

theorem IsNew.books {g : Engine} {capacity : Nat} (h : g.IsNew capacity) : g.Books [] [] 0 0 where
  isMeasured := h.isMeasured
  ledger := h.ledger ▸ Ledger.keeps_empty
  observed := congrArg Ledger.observed h.ledger
  measured := h.observed
  processed := h.processed
  anomalies := h.anomalies
  dropped := h.dropped

variable {g : Engine} {drained found : List Anomaly} {judged shed : Nat} {pipeline : Pipeline}

/-- **An event is judged** after it has left the queue. -/
theorem Books.judge (h : g.Books drained found judged shed) {e : Event} {now : Instant}
    {queue : EventQueue} (hprocess : { g.pipeline with queue }.Processes e now pipeline)
    (hshed : shed ≤ queue.dropped) :
    { g with pipeline, processed := g.processed + 1 }.Books drained
      (found ++ (g.pipeline.detector.ask (.observe e now)).1.toList) (judged + 1)
      queue.dropped where
  isMeasured := hprocess.isMeasured
  ledger := by
    rw [hprocess.ledger]
    exact h.ledger.recordObserved.enter _
  observed := by
    rw [hprocess.ledger, Ledger.observed_enter, ← h.observed]
    rfl
  measured := by rw [hprocess.observed, ← h.measured]
  processed := congrArg (· + 1) h.processed
  anomalies := fun reason => by rw [hprocess.anomalies, List.countP_append, ← h.anomalies]
  dropped := by
    rw [hprocess.dropped, h.dropped]
    exact Nat.max_eq_right hshed

/-- **A training** leaves no trace in the books. -/
theorem Books.train (h : g.Books drained found judged shed) {now : Instant}
    (hretrain : g.pipeline.Retrains now pipeline) (cycles : Nat) :
    { g with pipeline, cycles }.Books drained found judged shed where
  isMeasured := hretrain.isMeasured.trans h.isMeasured
  ledger := hretrain.ledger ▸ h.ledger
  observed := (congrArg Ledger.observed hretrain.ledger).trans h.observed
  measured := hretrain.metrics.observed.trans h.measured
  processed := h.processed
  anomalies := fun reason => (congrArg (Tally.count · reason) hretrain.metrics.anomalies).trans
    (h.anomalies reason)
  dropped := hretrain.metrics.dropped.trans h.dropped

/-- A training changes the pipeline, and how many there have been. -/
theorem train_spec (g : Engine) (now : Instant) :
    ∃ pipeline cycles, g.pipeline.Retrains now pipeline ∧
      (g.train now).2 = { g with pipeline, cycles } := by
  have hretrain := g.pipeline.retrain?_spec now
  unfold train
  cases htrained : g.pipeline.retrain? now with
  | none =>
      rw [htrained] at hretrain
      exact ⟨g.pipeline, g.cycles, hretrain, rfl⟩
  | some trained =>
      rw [htrained] at hretrain
      exact ⟨trained.2, g.cycles + 1, hretrain, rfl⟩

/-- An engine that has stopped judges nothing more. -/
theorem consume_shutdown (g : Engine) (now : Instant) :
    g.shutdown.2.consume now = (false, g.shutdown.2) := by
  have hdequeue : g.shutdown.2.pipeline.queue.dequeue = (.finished, _) :=
    EventQueue.dequeue_of_isCancelled rfl
  rw [consume, Pipeline.consume_of_none now (congrArg (·.1.event?) hdequeue)]

end Engine

/-! ### Runs -/

/-- What can happen to an engine. -/
inductive EngineStep where
  | enqueue (e : Event)
  | seed (events : List Event)
  /-- The next event is judged, if the queue offers one. -/
  | consume (now : Instant)
  | train (now : Instant)
  | drain
  | shutdown

/-- The event that is to be judged, if one is. -/
def Request.event? : Request → Option Event
  | observe e _ => some e
  | retrain _ => none

/-- An engine, and what has happened to it. -/
structure Chronicle where
  engine : Engine
  /-- What was asked of the detectors, in order. -/
  asked : List Request
  /-- What was drained, batch by batch. -/
  batches : List (List Anomaly)
  arrived : List Event
  /-- How many events had been shed when the latest one was judged. -/
  shedBefore : Nat

namespace Chronicle

/-- Nothing has happened yet. -/
def start (g : Engine) : Chronicle := ⟨g, [], [], [], 0⟩

/-- A step of the engine is taken down. -/
def next (c : Chronicle) : EngineStep → Chronicle
  | .enqueue e => { c with
      engine := (c.engine.onPipeline (·.enqueue e)).2
      arrived := c.arrived ++ [e] }
  | .seed events => { c with
      engine := { c.engine with pipeline := c.engine.pipeline.seed events }
      arrived := c.arrived ++ events }
  | .consume now =>
    match c.engine.pipeline.queue.dequeue.1.event? with
    | some e => { c with
        engine := (c.engine.consume now).2
        asked := c.asked ++ [.observe e now]
        shedBefore := c.engine.pipeline.queue.dropped }
    | none => { c with engine := (c.engine.consume now).2 }
  | .train now => { c with
      engine := (c.engine.train now).2
      asked := c.asked ++ [.retrain now] }
  | .drain => { c with
      engine := (c.engine.onPipeline (·.drain)).2
      batches := c.batches ++ [c.engine.pipeline.drain.1] }
  | .shutdown => { c with engine := c.engine.shutdown.2 }

/-- Steps of the engine are taken down. -/
def run (c : Chronicle) (steps : List EngineStep) : Chronicle :=
  steps.foldl next c

/-- The events that were judged. -/
def judged (c : Chronicle) : List Event :=
  c.asked.filterMap Request.event?

/-- **The state of an engine as its chronicle has it**, given the detectors at the start and the
capacity of the queue. -/
structure Follows (d : Detector) (capacity : Nat) (c : Chronicle) : Prop where
  detector : c.engine.pipeline.detector = d.askAll c.asked
  books : c.engine.Books c.batches.flatten (d.findings c.asked) c.judged.length c.shedBefore
  latest : c.shedBefore ≤ c.engine.pipeline.queue.dropped
  room : c.engine.pipeline.queue.HasRoom
  /-- What has left the queue otherwise than for the detectors was shed. -/
  flow : ∃ departed, EventQueue.Flow (.empty capacity) c.arrived departed c.engine.pipeline.queue ∧
    departed.filterMap Departure.delivered? = c.judged

variable {d : Detector} {capacity : Nat} {c : Chronicle}

theorem follows_start {g : Engine} (h : g.IsNew capacity) :
    (start g).Follows g.pipeline.detector capacity where
  detector := rfl
  books := h.books
  latest := Nat.zero_le _
  room := by
    change g.pipeline.queue.HasRoom
    rw [h.queue]
    exact EventQueue.hasRoom_empty capacity
  flow := by
    refine ⟨[], ?_, rfl⟩
    change EventQueue.Flow (.empty capacity) [] [] g.pipeline.queue
    rw [h.queue]
    exact .refl _

/-- Events that arrive change nothing but the queue. -/
theorem Follows.arrive (h : c.Follows d capacity) {queue : EventQueue} {events shed : List Event}
    (hroom : queue.HasRoom)
    (hflow : EventQueue.Flow c.engine.pipeline.queue events (shed.map .shed) queue) :
    Follows d capacity { c with
      engine := { c.engine with pipeline := { c.engine.pipeline with queue } }
      arrived := c.arrived ++ events } := by
  obtain ⟨departed, hbefore, hdelivered⟩ := h.flow
  have hnone : (shed.map Departure.shed).filterMap Departure.delivered? = [] := by
    simp [List.filterMap_map, Departure.delivered?, Function.comp_def]
  have hlatest : c.shedBefore ≤ queue.dropped := by
    rw [hflow.dropped]
    exact Nat.le_add_right_of_le h.latest
  refine { h with
    books := { h.books with }
    latest := hlatest
    room := hroom
    flow := ⟨departed ++ shed.map .shed, hbefore.trans hflow, ?_⟩ }
  rw [List.filterMap_append, hnone, List.append_nil]
  exact hdelivered

/-- The event that the queue offers is judged. -/
theorem Follows.judge (h : c.Follows d capacity) {e : Event} {now : Instant} {queue : EventQueue}
    (hdequeue : c.engine.pipeline.queue.dequeue = (.event e, queue)) {pipeline : Pipeline}
    (hprocess : { c.engine.pipeline with queue }.Processes e now pipeline) :
    Follows d capacity { c with
      engine := { c.engine with pipeline, processed := c.engine.processed + 1 }
      asked := c.asked ++ [.observe e now]
      shedBefore := c.engine.pipeline.queue.dropped } := by
  have hqueue : pipeline.queue = queue := hprocess.queue
  have hflow := c.engine.pipeline.queue.flow_dequeue
  have hroom := h.room.dequeue
  rw [hdequeue] at hflow hroom
  -- asking for an event sheds none
  have hshed : queue.dropped = c.engine.pipeline.queue.dropped := hflow.dropped
  have hjudged : (c.asked ++ [Request.observe e now]).filterMap Request.event? = c.judged ++ [e] :=
    List.filterMap_append
  constructor
  case detector =>
    change pipeline.detector = d.askAll (c.asked ++ [.observe e now])
    rw [hprocess.detector, Detector.askAll_append, ← h.detector]
    rfl
  case books =>
    have hfindings : d.findings (c.asked ++ [.observe e now]) =
        d.findings c.asked ++ (c.engine.pipeline.detector.ask (.observe e now)).1.toList := by
      rw [Detector.findings_append, h.detector]
      exact congrArg _ (List.append_nil _)
    have hlength : (c.judged ++ [e]).length = c.judged.length + 1 := List.length_append
    have hbooks := h.books.judge hprocess (hshed ▸ h.latest)
    rwa [← hfindings, ← hlength, ← hjudged, hshed] at hbooks
  case latest =>
    change c.engine.pipeline.queue.dropped ≤ pipeline.queue.dropped
    rw [hqueue, hshed]
  case room =>
    change pipeline.queue.HasRoom
    rw [hqueue]
    exact hroom
  case flow =>
    obtain ⟨departed, hbefore, hdelivered⟩ := h.flow
    refine ⟨departed ++ [.delivered e], ?_, ?_⟩
    · change EventQueue.Flow _ c.arrived _ pipeline.queue
      rw [hqueue, ← List.append_nil c.arrived]
      exact hbefore.trans hflow
    · refine Eq.trans ?_ hjudged.symm
      rw [List.filterMap_append, hdelivered]
      rfl

/-- **The next event** is judged, if the queue offers one. -/
theorem Follows.consume (h : c.Follows d capacity) (now : Instant) :
    (c.next (.consume now)).Follows d capacity := by
  rcases hdequeue : c.engine.pipeline.queue.dequeue with ⟨offer, queue⟩
  cases offer with
  | event e =>
      have hprocess := Pipeline.process_spec (p := { c.engine.pipeline with queue })
        h.books.isMeasured e now
      have hfollows := h.judge hdequeue hprocess
      simp only [next, hdequeue, Offer.event?, Engine.consume,
        Pipeline.consume_of_event now hdequeue]
      exact hfollows
  | waiting | finished =>
      simp only [next, hdequeue, Offer.event?, Engine.consume,
        Pipeline.consume_of_none now (congrArg (·.1.event?) hdequeue)]
      exact h

/-- The detectors are trained, and find nothing. -/
theorem Follows.train (h : c.Follows d capacity) {now : Instant} {pipeline : Pipeline}
    (hretrain : c.engine.pipeline.Retrains now pipeline) (cycles : Nat) :
    Follows d capacity { c with
      engine := { c.engine with pipeline, cycles }
      asked := c.asked ++ [.retrain now] } := by
  have hjudged : (c.asked ++ [Request.retrain now]).filterMap Request.event? = c.judged :=
    List.filterMap_append.trans (List.append_nil _)
  have hfindings : d.findings (c.asked ++ [.retrain now]) = d.findings c.asked :=
    (d.findings_append _ _).trans (List.append_nil _)
  have hqueue := hretrain.queue.symm
  constructor
  case detector =>
    change pipeline.detector = d.askAll (c.asked ++ [.retrain now])
    rw [hretrain.detector, Detector.askAll_append, ← h.detector]
    rfl
  case books =>
    have hbooks := h.books.train hretrain cycles
    rwa [← hfindings, ← hjudged] at hbooks
  case latest => exact hqueue ▸ h.latest
  case room => exact hqueue ▸ h.room
  case flow =>
    obtain ⟨departed, hbefore, hdelivered⟩ := h.flow
    exact ⟨departed, hqueue ▸ hbefore, hdelivered.trans hjudged.symm⟩

/-- **Every step leaves the engine as the chronicle has it.** -/
theorem Follows.next (h : c.Follows d capacity) (step : EngineStep) :
    (c.next step).Follows d capacity := by
  cases step with
  | enqueue e => exact h.arrive (h.room.enqueue e) (h.room.flow_enqueue e)
  | seed events => exact h.arrive (h.room.seed events) (h.room.flow_seed events)
  | consume now => exact h.consume now
  | train now =>
      obtain ⟨pipeline, cycles, hretrain, htrain⟩ := c.engine.train_spec now
      rw [Chronicle.next, htrain]
      exact h.train hretrain cycles
  | drain =>
      have hledger := h.books.ledger.drain
      rw [← List.flatten_concat] at hledger
      exact { h with books := { h.books with ledger := hledger } }
  | shutdown =>
      obtain ⟨departed, hbefore, hdelivered⟩ := h.flow
      exact { h with
        books := { h.books with }
        room := ⟨h.room.pos, h.room.size⟩
        flow := ⟨departed, { hbefore with cancelled := fun _ => rfl }, hdelivered⟩ }

/-- **Every run leaves the engine as the chronicle has it.** -/
theorem follows_run (h : c.Follows d capacity) (steps : List EngineStep) :
    (c.run steps).Follows d capacity := by
  induction steps generalizing c with
  | nil => exact h
  | cons step rest ih => exact ih (h.next step)

/-! ### The balance -/

/-- **The books balance** with what the given detectors find in what they are asked. -/
structure Balances (d : Detector) (c : Chronicle) : Prop where
  /-- What was drained and what waits is all that was found, in order. -/
  found : c.batches.flatten ++ c.engine.pipeline.ledger.pending = d.findings c.asked
  observed : c.engine.pipeline.ledger.observed = c.judged.length
  measured : c.engine.pipeline.metrics.observed = c.judged.length
  total : c.engine.pipeline.ledger.total = (d.findings c.asked).length
  sum : c.engine.pipeline.ledger.found.sum = (d.findings c.asked).length
  count : ∀ reason, c.engine.pipeline.ledger.found.count reason =
    (d.findings c.asked).countP fun a => decide (a.reason = reason)
  anomalies : ∀ reason, c.engine.pipeline.metrics.anomalies.count reason =
    c.engine.pipeline.ledger.found.count reason
  last : c.engine.pipeline.ledger.lastDetection = ((d.findings c.asked).map (·.detectedAt)).max?
  /-- The metrics know what had been shed when the latest event was judged. -/
  dropped : c.engine.pipeline.metrics.dropped = c.shedBefore
  latest : c.shedBefore ≤ c.engine.pipeline.queue.dropped
  /-- Events are judged in the order in which they arrived. -/
  judged : c.judged.Sublist c.arrived
  enqueued : c.engine.shutdown.2.pipeline.queue.enqueued = c.arrived.length
  /-- An engine that stops tells how many events it has judged. -/
  processed : c.engine.shutdown.1 = c.judged.length
  /-- All other events were shed, or wait. -/
  balance : c.engine.shutdown.1 + c.engine.shutdown.2.pipeline.queue.dropped +
    c.engine.shutdown.2.pipeline.queue.size = c.engine.shutdown.2.pipeline.queue.enqueued
  /-- Nothing is judged after the stop. -/
  stopped : ∀ now, c.engine.shutdown.2.consume now = (false, c.engine.shutdown.2)

theorem Follows.balances (h : c.Follows d capacity) : c.Balances d := by
  obtain ⟨departed, hflow, hdelivered⟩ := h.flow
  have haccounts := EventStream.accounts_of_flow hflow h.room
  have hledger := h.books.ledger
  constructor
  case found => exact hledger.waiting
  case observed => exact h.books.observed
  case measured => exact h.books.measured
  case total => exact hledger.total
  case sum => exact hledger.sum
  case count => exact hledger.count
  case anomalies => exact fun reason => (h.books.anomalies reason).trans (hledger.count reason).symm
  case last => exact hledger.last
  case dropped => exact h.books.dropped
  case latest => exact h.latest
  case judged => exact hdelivered ▸ haccounts.delivered
  case enqueued => exact haccounts.enqueued
  case processed => exact h.books.processed
  case balance =>
    have hprocessed : c.engine.shutdown.1 = (departed.filterMap Departure.delivered?).length :=
      h.books.processed.trans (congrArg _ hdelivered.symm)
    rw [hprocessed]
    exact haccounts.balance.symm
  case stopped => exact c.engine.consume_shutdown

/-- **The books of an engine balance.** Let events arrive at a new engine of any capacity, one by one
or many at once, and be judged, let the detectors be trained, the ledger drained and the engine
stopped, in any order and at any times, even if the clock goes back.  Then the ledger and the metrics
agree with what the detectors find when nobody listens, and every event is accounted for. -/
theorem books_balance {g : Engine} (h : g.IsNew capacity) (steps : List EngineStep) :
    ((start g).run steps).Balances g.pipeline.detector :=
  (follows_run (follows_start h) steps).balances

/-- Of three hits of the firewall one is shed, and two are found while the clock goes back. -/
theorem books_balance_hits :
    let settings : Deployment := { Deployment.plain with queueCapacity := 2 }
    let hit (client : String) : Event := ⟨some client, 1.0, 403, false, true, "GET", "/", 3.0⟩
    let steps : List EngineStep := [.enqueue (hit "alice"), .seed [hit "bob", hit "carol"],
      .consume 9, .drain, .consume 4, .shutdown, .consume 5]
    ∃ g, Engine.start settings ⟨none, .empty⟩ 0 = .ok g ∧
      let c := (start g).run steps
      c.Balances g.pipeline.detector ∧ c.batches.map List.length = [1] ∧
        c.engine.pipeline.ledger.size = 1 ∧ c.engine.pipeline.ledger.lastDetection = some 9 ∧
        c.engine.processed = 2 ∧ c.engine.pipeline.queue.dropped = 1 := by
  intro settings hit steps
  have hrun : (Engine.start settings ⟨none, .empty⟩ 0).toOption.any (fun g =>
      let c := (start g).run steps
      c.batches.map List.length == [1] && c.engine.pipeline.ledger.size == 1 &&
        c.engine.pipeline.ledger.lastDetection == some 9 && c.engine.processed == 2 &&
        c.engine.pipeline.queue.dropped == 1) = true := by
    decide +kernel
  obtain ⟨g, hstart, hrun⟩ := exists_ok hrun
  simp only [Bool.and_eq_true, beq_iff_eq] at hrun
  obtain ⟨⟨⟨⟨hbatches, hsize⟩, hlast⟩, hprocessed⟩, hdropped⟩ := hrun
  exact ⟨g, hstart, books_balance (Engine.isNew_of_start hstart) steps, hbatches, hsize, hlast,
    hprocessed, hdropped⟩

/-! ### What an engine does at a moment -/

theorem run_append (c : Chronicle) (steps more : List EngineStep) :
    c.run (steps ++ more) = (c.run steps).run more :=
  List.foldl_append

theorem engine_next_consume (c : Chronicle) (now : Instant) :
    (c.next (.consume now)).engine = (c.engine.consume now).2 := by
  simp only [next]
  split <;> rfl

/-- To let the detectors catch up is to judge one event after the other. -/
theorem engine_run_replicate (c : Chronicle) (count : Nat) (now : Instant) :
    (c.run (List.replicate count (.consume now))).engine = { c.engine with
      pipeline := (c.engine.pipeline.pump count now).2
      processed := c.engine.processed + (c.engine.pipeline.pump count now).1.length } := by
  induction count generalizing c with
  | zero => rfl
  | succ count ih =>
      have hrest := ih (c.next (.consume now))
      rw [engine_next_consume] at hrest
      refine hrest.trans ?_
      rcases hdequeue : c.engine.pipeline.queue.dequeue with ⟨offer, queue⟩
      cases offer with
      | event e =>
          rw [Engine.consume, Pipeline.pump, Pipeline.consume_of_event now hdequeue]
          simp only [List.length_cons, Nat.add_assoc, Nat.add_comm 1]
      | waiting | finished =>
          have hnone : c.engine.pipeline.queue.dequeue.1.event? = none :=
            congrArg (·.1.event?) hdequeue
          rw [Engine.consume, Pipeline.consume_of_none now hnone, Pipeline.pump_of_none now hnone,
            Pipeline.pump_of_none now hnone]

/-- Steps in which the detectors catch up with the queue. -/
def settling (c : Chronicle) (now : Instant) : List EngineStep :=
  List.replicate c.engine.pipeline.queue.size (.consume now)

/-- **The detectors catch up in a run**. -/
theorem engine_run_settle (c : Chronicle) (now : Instant) :
    (c.run (c.settling now)).engine = c.engine.settle now :=
  c.engine_run_replicate c.engine.pipeline.queue.size now

/-- **A training cycle is a run.** -/
theorem engine_run_nextCycle (c : Chronicle) (now : Instant)
    (h : c.engine.pipeline.detector.learner?.isSome = true) :
    (c.run (c.settling now ++ [.train now])).engine = (c.engine.nextCycle now).2 := by
  obtain ⟨l, hl⟩ := Option.isSome_iff_exists.mp h
  rw [run_append, Engine.nextCycle, hl, ← engine_run_settle]
  rfl

/-- **A replay is a run.** -/
theorem engine_run_replay (c : Chronicle) (text : List Char) (now : Instant) :
    (c.run (c.settling now ++ [.seed (Replay.ofText text).events])).engine =
      (c.engine.replay text now).2 := by
  rw [run_append, Engine.replay, ← engine_run_settle]
  rfl

end Chronicle

end TrafficWatch
