import TrafficWatch.Proofs.Learner.Reachable
import TrafficWatch.Proofs.Learner.Remembered

/-!
# Learner — Unchanged

A training that brings nothing changes nothing but what is remembered, in the learner, in the files
and with those who listen, and leaves it open to train again (`Learner.Unchanged`).  One that brings
something shows in full in how the learner stands.  `Learner.trains_wholly` says both of every
training of every learner that can come about.
-/

namespace TrafficWatch

variable {σ τ : Type}

theorem Outcome.of_isSkipped {o : Outcome} (h : o.isSkipped = true) :
    ∃ reason, o = .skipped reason := by
  cases o with
  | skipped reason => exact ⟨reason, rfl⟩
  | retrained x n | recalibrated x n => cases h

theorem Outcome.of_not_isSkipped {o : Outcome} (h : o.isSkipped = false) :
    ∃ x n, o = .retrained x n ∨ o = .recalibrated x n := by
  cases o with
  | skipped reason => cases h
  | retrained x n => exact ⟨x, n, .inl rfl⟩
  | recalibrated x n => exact ⟨x, n, .inr rfl⟩

theorem Calibration.eq_of_outcome {c : Calibration} {m n : Nat} {x : Float}
    (h : c.outcome m = .retrained x n ∨ c.outcome m = .recalibrated x n) :
    x = c.threshold ∧ n = m := by
  cases c with
  | byRate threshold =>
      rcases h with h | h
      · cases h
      · cases h
        exact ⟨rfl, rfl⟩
  | byModel model threshold =>
      rcases h with h | h
      · cases h
        exact ⟨rfl, rfl⟩
      · cases h

namespace Learner

/-- **A training can be tried**: one that is asked for is not taken to be going on already, and a
first one brings what it finds. -/
structure CanTrain (hear : Listener σ) (l : Learner) : Prop where
  retrain : ∀ now s, (l.retrain hear now s).1 ≠ .skipped .inProgress
  observe : ∀ e now s c, l.phase = .warmUp → e.isClean = true →
    l.settings.baselineSize ≤ (l.remember e.features now).buffer.size →
      l.settings.calibrate (l.remember e.features now).buffer.features = .ok c →
        (l.observe hear e now s).2.1.phase ≠ .warmUp

/-- **What a training that brought nothing leaves**: what is in force is what was in force, nothing was
heard, and a training can be tried again. -/
structure Unchanged (hear : Listener σ) (l : Learner) (s : σ) (l' : Learner) (s' : σ) : Prop where
  cell : l'.cell = l.cell
  settings : l'.settings = l.settings
  capacity : l'.buffer.capacity = l.buffer.capacity
  heard : s' = s
  canTrain : CanTrain hear l'

/-- The samples that a skipped training leaves: all of them in the warm-up, else those that are young
enough. -/
def leftBy (l : Learner) (now : Instant) : SkipReason → List Sample
  | .notTrained => l.buffer.samples
  | _ => l.buffer.samples.filter (l.settings.isYoung now)

/-- How a learner stands after a training that brought something, and how it stood before. -/
structure Shows (status before : LearnerStatus) (threshold : Float) (samples : Nat) : Prop where
  threshold : status.threshold = some threshold
  trainedSamples : status.trainedSamples = samples
  version : status.version = before.version + 1

variable {hear : Listener σ} {settings : Deployment} {l : Learner} {active : Active}

/-! ### Trainings that bring nothing -/

/-- Why a training after the first brings nothing. -/
theorem laterTraining_eq_error {samples : List Features} {reason : SkipReason}
    (h : laterTraining settings active samples = .error reason) :
    reason = .tooFewSamples samples.length settings.minSamples ∨
      reason = .degenerate (totalVariance samples) ∨ ∃ fault, reason = .fitFailed fault := by
  unfold laterTraining at h
  split at h
  · cases h
    exact .inl rfl
  simp only at h
  split at h
  · cases h
    exact .inr (.inl rfl)
  · cases hc : settings.calibrate samples with
    | ok c => rw [hc] at h; cases h
    | error fault =>
        rw [hc] at h
        cases h
        exact .inr (.inr ⟨fault, rfl⟩)

theorem outcome_ne_skipped (c : Calibration) (samples : Nat) (reason : SkipReason) :
    c.outcome samples ≠ .skipped reason := by
  cases c <;> nofun

/-- While no training is going on, one that is asked for is not taken to be going on already. -/
theorem retrain_ne_inProgress (hear : Listener σ) (hidle : l.isTraining = false) (now : Instant)
    (s : σ) : (l.retrain hear now s).1 ≠ .skipped .inProgress := by
  cases hcurrent : l.cell.current with
  | none =>
      rw [retrain_of_none hear hidle hcurrent]
      nofun
  | some active =>
      rw [retrain_fst hear hidle hcurrent]
      cases hfound : l.found active now with
      | ok c => exact outcome_ne_skipped c _ _
      | error reason =>
          rcases laterTraining_eq_error hfound with rfl | rfl | ⟨fault, rfl⟩ <;> nofun

theorem IsReady.canTrain (h : l.IsReady) (hquiet : hear.IsQuiet) : CanTrain hear l where
  retrain := retrain_ne_inProgress hear h.idle
  observe := fun e now s c hphase hclean hlate hfound => by
    have hnone := phase_eq_warmUp.mp hphase
    have hbrings : (l.remember e.features now).firstFound? = some c :=
      firstFound?_eq_some.mpr ⟨hlate, hfound⟩
    rw [observe_of_found hear h.idle hnone hclean hbrings, Ne, phase_eq_warmUp,
      cell_conclude hquiet (isRetraining_activate _ _ _ _)]
    nofun

/-- A learner that differs only in what it remembers is as open to training. -/
theorem IsReady.unchanged (h : l.IsReady) (hquiet : hear.IsQuiet) {l' : Learner} (ha : l.Alike l')
    (s : σ) : Unchanged hear l s l' s :=
  ⟨ha.cell, ha.settings, ha.capacity, rfl, (h.alike ha).canTrain hquiet⟩

/-- **A training that is skipped** changes nothing else. -/
theorem IsReady.unchanged_of_skipped (h : l.IsReady) (hquiet : hear.IsQuiet) {now : Instant} {s : σ}
    {reason : SkipReason} (hskipped : (l.retrain hear now s).1 = .skipped reason) :
    Unchanged hear l s (l.retrain hear now s).2.1 (l.retrain hear now s).2.2 ∧
      (l.retrain hear now s).2.1.buffer.samples =
        l.leftBy now reason := by
  cases hcurrent : l.cell.current with
  | none =>
      rw [retrain_of_none hear h.idle hcurrent] at hskipped ⊢
      cases hskipped
      exact ⟨h.unchanged hquiet (.refl l) s, rfl⟩
  | some active =>
      cases hfound : l.found active now with
      | ok c =>
          rw [retrain_of_ok hear h.idle hcurrent hfound] at hskipped
          exact absurd hskipped (outcome_ne_skipped c _ _)
      | error reason' =>
          rw [retrain_of_error hear h.idle hcurrent hfound] at hskipped ⊢
          cases hskipped
          refine ⟨h.unchanged hquiet (.forget l now) s, ?_⟩
          rcases laterTraining_eq_error hfound with rfl | rfl | ⟨fault, rfl⟩ <;> rfl

/-- **A first training that fails** leaves the event remembered. -/
theorem IsReady.observe_of_error (h : l.IsReady) (hear : Listener σ) (hphase : l.phase = .warmUp)
    {e : Event} (hclean : e.isClean = true) {now : Instant} {fault : ModelFault}
    (hfault : l.settings.calibrate (l.remember e.features now).buffer.features = .error fault)
    (s : σ) : l.observe hear e now s = (.normal, l.remember e.features now, s) := by
  have hnone := phase_eq_warmUp.mp hphase
  have hfound : (l.remember e.features now).firstFound? = none :=
    Option.eq_none_iff_forall_ne_some.mpr fun c hc => by
      have hok := (firstFound?_eq_some.mp hc).2
      cases hfault.symm.trans hok
  exact observe_of_unfound hear h.idle hnone hclean hfound s

/-! ### Trainings that bring something -/

theorem shows_of_swap {l' : Learner} {c : Calibration} {now : Instant} {samples : Nat}
    (hversion : l.status.version = l.cell.versions)
    (hcell : l'.cell = l.cell.swap (.ofCalibration l.settings.scorerPoolSize samples now c)) :
    Shows l'.status l.status c.threshold samples := by
  refine ⟨?_, ?_, ?_⟩
  · rw [status, hcell]
    cases c <;> rfl
  · rw [status, hcell]
    exact Active.samples_ofCalibration _ _ _ c
  · rw [hversion, status, hcell]
    rfl

/-- **What a training brings shows.**  Its samples are those that are young enough, and they are what
the buffer holds afterwards unless those who hear of it hand in others. -/
theorem IsReady.shows_of_brought (h : l.IsReady) (hquiet : hear.IsQuiet)
    (hversion : l.status.version = l.cell.versions) {now : Instant} {s : σ} {x : Float} {n : Nat}
    (hbrought : (l.retrain hear now s).1 = .retrained x n ∨
      (l.retrain hear now s).1 = .recalibrated x n) :
    Shows (l.retrain hear now s).2.1.status l.status x n ∧ (l.forget now).buffer.size = n ∧
      ((∀ a told s, (hear a told s).1.buffer = told.buffer) →
        (l.retrain hear now s).2.1.status.baselineSize = n) := by
  cases hcurrent : l.cell.current with
  | none =>
      rw [retrain_of_none hear h.idle hcurrent] at hbrought
      rcases hbrought with hbrought | hbrought <;> cases hbrought
  | some active =>
      cases hfound : l.found active now with
      | error reason =>
          rw [retrain_of_error hear h.idle hcurrent hfound] at hbrought
          rcases hbrought with hbrought | hbrought <;> cases hbrought
      | ok c =>
          rw [retrain_of_ok hear h.idle hcurrent hfound] at hbrought ⊢
          obtain ⟨rfl, rfl⟩ := Calibration.eq_of_outcome hbrought
          refine ⟨shows_of_swap hversion
            (cell_conclude hquiet (isRetraining_activate (l.forget now) c _ now) _ s), rfl,
            fun hleaves => ?_⟩
          exact congrArg BaselineBuffer.size (hleaves _ _ s)

/-- **A training is whole or nothing.** Take any learner that can come about, with an archive and with
anyone who listens.  A training that is skipped changes nothing in force, no file, and nothing that
anyone has heard; the samples that are too old are forgotten, and none in the warm-up.  A first
training that fails changes nothing but that the event is remembered.  A training that brings
something shows in how the learner stands, together with the number of its samples. -/
theorem trains_wholly {other : Listener τ} (hquiet : other.IsQuiet)
    (h : Reachable (Archive.listener.both other) settings l) (now : Instant) (archive : Archive)
    (t : τ) :
    let hear := Archive.listener.both other
    let after := l.retrain hear now (archive, t)
    (∀ reason, after.1 = .skipped reason →
      Unchanged hear l (archive, t) after.2.1 after.2.2 ∧
        after.2.1.buffer.samples = l.leftBy now reason) ∧
    (∀ e fault, l.phase = .warmUp → e.isClean = true →
      settings.calibrate (l.remember e.features now).buffer.features = .error fault →
        l.observe hear e now (archive, t) = (.normal, l.remember e.features now, archive, t) ∧
          Unchanged hear l (archive, t) (l.remember e.features now) (archive, t)) ∧
    (∀ x n, after.1 = .retrained x n ∨ after.1 = .recalibrated x n →
      Shows after.2.1.status l.status x n ∧ (l.forget now).buffer.size = n ∧
        ((∀ a told t, (other a told t).1.buffer = told.buffer) →
          after.2.1.status.baselineSize = n)) := by
  intro hear after
  have hboth : hear.IsQuiet := Archive.isQuiet_listener.both hquiet
  have hready := h.isReady hboth
  have hsettings := h.settings_eq hboth
  subst hsettings
  refine ⟨fun reason hskipped => hready.unchanged_of_skipped hboth hskipped,
    fun e fault hphase hclean hfault => ?_, fun x n hbrought => ?_⟩
  · exact ⟨hready.observe_of_error hear hphase hclean hfault _,
      hready.unchanged hboth (.remember l _ _) _⟩
  · obtain ⟨hshows, hleft, hsize⟩ :=
      hready.shows_of_brought hboth (h.status_version hboth) hbrought
    exact ⟨hshows, hleft, fun hleaves => hsize fun a told s => hleaves a told s.2⟩

/-- A learner that learned from one event.  A training soon after brings a threshold again; one that
comes too late finds nothing and leaves the files alone. -/
theorem trains_wholly_hasty :
    let settings : Deployment :=
      { Deployment.plain with
        baselineSize := 1, baselineCap := 1, minSamples := 1, trainingWindowMinutes := 1,
        paths := some (.inDirectory "state") }
    let event : Event := ⟨none, 5.0, 200, false, false, "GET", "/", 3.0⟩
    let hear := Archive.listener.both unheard
    let files : Archive := ⟨settings.paths, .empty⟩
    ∃ l₀ s₀, resume hear settings files 0 (files, ()) = .ok (l₀, s₀) ∧
      let l := (serve hear (.observe event 0) l₀ s₀).1
      let archive := (serve hear (.observe event 0) l₀ s₀).2.1
      let soon := l.retrain hear 1 (archive, ())
      let late := l.retrain hear 1000000000000 (archive, ())
      soon.1.isSkipped = false ∧ soon.2.1.status.version = l.status.version + 1 ∧
        soon.2.1.status.baselineSize = soon.2.1.status.trainedSamples ∧
          late.1.isSkipped = true ∧ late.2.1.cell = l.cell ∧ late.2.2 = (archive, ()) := by
  intro settings event hear files
  have hrun : (resume hear settings files 0 (files, ())).toOption.any (fun start =>
      let after := serve hear (.observe event 0) start.1 start.2
      !(after.1.retrain hear 1 (after.2.1, ())).1.isSkipped &&
        (after.1.retrain hear 1000000000000 (after.2.1, ())).1.isSkipped) = true := by
    decide +kernel
  obtain ⟨⟨l₀, s₀⟩, hstart, hrun⟩ := exists_ok hrun
  have hreachable := (Reachable.start hstart).serve (.observe event 0) s₀
  refine ⟨l₀, s₀, hstart, ?_⟩
  intro l archive soon late
  obtain ⟨-, -, hbrought⟩ := trains_wholly isQuiet_unheard hreachable 1 archive ()
  obtain ⟨hskipped, -⟩ := trains_wholly isQuiet_unheard hreachable 1000000000000 archive ()
  obtain ⟨hsoon, hlate⟩ := Bool.and_eq_true_iff.mp hrun
  rw [Bool.not_eq_true'] at hsoon
  obtain ⟨x, n, houtcome⟩ := Outcome.of_not_isSkipped hsoon
  obtain ⟨hshows, -, hsize⟩ := hbrought x n houtcome
  obtain ⟨reason, hreason⟩ := Outcome.of_isSkipped hlate
  obtain ⟨hunchanged, -⟩ := hskipped reason hreason
  exact ⟨hsoon, hshows.version, (hsize fun _ _ _ => rfl).trans hshows.trainedSamples.symm, hlate,
    hunchanged.cell, hunchanged.heard⟩

end Learner

end TrafficWatch
