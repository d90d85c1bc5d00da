import TrafficWatch.Pipeline
import TrafficWatch.Proofs.Detector
import TrafficWatch.Proofs.Event.Queue
import TrafficWatch.Proofs.Ledger

/-!
# Pipeline

What judging an event leaves in a pipeline that is measured (`Pipeline.process_spec`), and what a
training leaves (`Pipeline.retrain?_spec`): the detectors are those that nobody listens to, and the
ledger and the metrics have each written down what was found.
-/

namespace TrafficWatch

/-- Metrics that count the same events and anomalies. -/
structure Metrics.CountsAlike (m m' : Metrics) : Prop where
  observed : m'.observed = m.observed
  dropped : m'.dropped = m.dropped
  anomalies : m'.anomalies = m.anomalies

namespace Pipeline

theorem isPassive_listener : listener.IsPassive := fun _ _ _ => rfl

/-- What comes into force is counted apart from events and anomalies. -/
theorem countsAlike_of_hears {s s' : Archive × Metrics} (h : listener.Hears s s') :
    s.2.CountsAlike s'.2 := by
  cases h <;> exact ⟨rfl, rfl, rfl⟩

/-- **What judging an event leaves**: it is found to be what the detectors find it to be, and the
ledger and the metrics say so. -/
structure Processes (p : Pipeline) (e : Event) (now : Instant) (p' : Pipeline) : Prop where
  queue : p'.queue = p.queue
  isMeasured : p'.isMeasured = true
  detector : p'.detector = (p.detector.ask (.observe e now)).2
  ledger : p'.ledger = p.ledger.recordObserved.enter (p.detector.ask (.observe e now)).1
  observed : p'.metrics.observed = p.metrics.observed + 1
  dropped : p'.metrics.dropped = max p.metrics.dropped p.queue.dropped
  anomalies : ∀ reason, p'.metrics.anomalies.count reason = p.metrics.anomalies.count reason +
    (p.detector.ask (.observe e now)).1.toList.countP fun a => decide (a.reason = reason)

theorem process_spec {p : Pipeline} (h : p.isMeasured = true) (e : Event) (now : Instant) :
    Processes p e now (p.process e now).2 := by
  obtain ⟨⟨archive, metrics⟩, hhears, hobserve⟩ :=
    p.detector.observe_of_isPassive isPassive_listener e now (p.archive, p.metrics)
  obtain ⟨hobserved, hdropped, hanomalies⟩ := countsAlike_of_hears hhears
  simp only at hobserved hdropped hanomalies
  obtain ⟨v, d, hasked⟩ : ∃ v d, p.detector.observe Learner.unheard e now () = (v, d, ()) :=
    ⟨_, _, rfl⟩
  rw [hasked] at hobserve
  have hask : p.detector.ask (.observe e now) =
      (v.reason?.map fun reason => ⟨e, reason, now⟩, d) := by
    simp only [Detector.ask, hasked]
  unfold process
  simp only [hobserve, measure, h, if_true]
  cases v with
  | normal =>
      refine ⟨rfl, rfl, by rw [hask], by rw [hask]; rfl, ?_, ?_, fun reason => ?_⟩
      · exact congrArg (· + 1) hobserved
      · exact congrArg (max · _) hdropped
      · rw [hask]
        exact congrArg (Tally.count · reason) hanomalies
  | anomaly found =>
      simp only [flag, measure, if_true]
      refine ⟨rfl, rfl, by rw [hask], by rw [hask]; rfl, ?_, ?_, fun reason => ?_⟩
      · exact congrArg (· + 1) hobserved
      · exact congrArg (max · _) hdropped
      · rw [hask, ← hanomalies]
        refine (metrics.anomalies.count_increment found reason).trans ?_
        simp [Verdict.reason?, List.countP_cons, eq_comm]

/-- **What a training leaves**: other detectors, and everything else that was written down. -/
structure Retrains (p : Pipeline) (now : Instant) (p' : Pipeline) : Prop where
  queue : p'.queue = p.queue
  isMeasured : p'.isMeasured = p.isMeasured
  detector : p'.detector = (p.detector.ask (.retrain now)).2
  ledger : p'.ledger = p.ledger
  metrics : p.metrics.CountsAlike p'.metrics

theorem retrain?_spec (p : Pipeline) (now : Instant) :
    Retrains p now (((p.retrain? now).map (·.2)).getD p) := by
  obtain ⟨⟨archive, metrics⟩, hhears, hretrain⟩ :=
    p.detector.retrain?_of_isPassive isPassive_listener now (p.archive, p.metrics)
  unfold retrain?
  rw [hretrain]
  have hask : (p.detector.ask (.retrain now)).2 =
      ((p.detector.retrain? Learner.unheard now ()).map (·.2.1)).getD p.detector := rfl
  cases htrained : p.detector.retrain? Learner.unheard now () with
  | none =>
      rw [htrained] at hask
      exact ⟨rfl, rfl, hask.symm, rfl, ⟨rfl, rfl, rfl⟩⟩
  | some trained =>
      rw [htrained] at hask
      exact ⟨rfl, rfl, hask.symm, rfl, countsAlike_of_hears hhears⟩

/-- **The next event**, if the queue offers one, leaves the queue and is judged. -/
theorem consume_of_event {p : Pipeline} {e : Event} {queue : EventQueue} (now : Instant)
    (h : p.queue.dequeue = (.event e, queue)) :
    p.consume now =
      (some ({ p with queue }.process e now).1, ({ p with queue }.process e now).2) := by
  unfold consume
  rw [h]

/-- Nothing happens when the queue offers nothing. -/
theorem consume_of_none {p : Pipeline} (now : Instant) (h : p.queue.dequeue.1.event? = none) :
    p.consume now = (none, p) := by
  unfold consume
  split
  · rename_i e queue hdequeue
    rw [hdequeue] at h
    cases h
  · rfl
  · rfl

theorem pump_of_none {p : Pipeline} (now : Instant) (h : p.queue.dequeue.1.event? = none)
    (count : Nat) : p.pump count now = ([], p) := by
  cases count with
  | zero => rfl
  | succ count => rw [pump, consume_of_none now h]

end Pipeline

end TrafficWatch
