import TrafficWatch.Proofs.Learner.Active
import TrafficWatch.Proofs.Learner.Training
import TrafficWatch.Proofs.Tally

/-!
# Learner — Phases

How a learner comes from one phase to another, and what is heard of it.  Around a learner there are
an archive, somebody who takes notice of what comes into force, and metrics (`Surroundings`);
requests come in any order, clocks move as they like, and files change from outside (`Happening`).

* `Lawful`: what a single happening may do: which phases can follow each other, and that what is in
  force changes only together with the version, and is heard of exactly once (`happen_lawful`);
* `Counted`: the version is the number of notices, and the metrics agree with them; every happening
  preserves this (`counted_happenAll`).

`Learner.phases_lawful` puts both together for every run from the start.
-/

namespace TrafficWatch

/-! ### What happens -/

/-- The files, what was taken notice of, and the metrics. -/
structure Surroundings where
  archive : Archive
  notices : List Notice
  metrics : Metrics

/-- All that hear of what comes into force.  Who takes notice may call the learner back. -/
def Surroundings.listener (callsBack : Bool) (time : Instant) : Listener Surroundings :=
  fun a l s =>
    let heard := Archive.listener.both ((Notice.listener callsBack time).both Metrics.listener) a l
      (s.archive, s.notices, s.metrics)
    (heard.1, ⟨heard.2.1, heard.2.2.1, heard.2.2.2⟩)

/-- What happens to a learner and around it. -/
inductive Happening where
  | request (r : Request)
  /-- Somebody else changes the files. -/
  | outside (files : FileTree)

/-- Which phase can follow another. -/
inductive PhaseChange : Happening → Option Outcome → Phase → Phase → Prop where
  | stays (h : Happening) (outcome : Option Outcome) (p : Phase) : PhaseChange h outcome p p
  /-- The first training, after a clean event. -/
  | learned {e : Event} {now : Instant} {p : Phase} (hclean : e.isClean = true) (hp : p ≠ .warmUp) :
      PhaseChange (.request (.observe e now)) none .warmUp p
  /-- A later training that gave a model. -/
  | recovered {now : Instant} {x : Float} {n : Nat} :
      PhaseChange (.request (.retrain now)) (some (.retrained x n)) .fallback .model

/-- Which kind of activation, and which threshold, goes with a happening, its outcome, and the
phases before and after it. -/
inductive Announces :
    Happening → Option Outcome → Phase → Phase → TrainingKind → Float → Prop where
  | baseline {e : Event} {now : Instant} {p : Phase} {x : Float} (hp : p ≠ .warmUp) :
      Announces (.request (.observe e now)) none .warmUp p .baseline x
  | recalibrate {now : Instant} {x : Float} {n : Nat} :
      Announces (.request (.retrain now)) (some (.recalibrated x n)) .fallback .fallback
        .recalibrate x
  | retrain {now : Instant} {p : Phase} {x : Float} {n : Nat} (hp : p ≠ .warmUp) :
      Announces (.request (.retrain now)) (some (.retrained x n)) p .model .retrain x

/-- What is in force and what is heard of it, after something has happened. -/
inductive Heard (h : Happening) (outcome : Option Outcome) (l : Learner) (s : Surroundings)
    (l' : Learner) (s' : Surroundings) : Prop where
  /-- What is in force is what was in force, and nobody hears anything. -/
  | nothing (hskipped : ∀ o, outcome = some o → o.isSkipped = true) (hcell : l'.cell = l.cell)
      (hnotices : s'.notices = s.notices) (hmetrics : s'.metrics = s.metrics)
  /-- Something comes into force with the next version, and is heard of once. -/
  | once (active : Active) (notice : Notice) (hcell : l'.cell = ⟨some active, l.cell.versions + 1⟩)
      (hversion : active.version = l.cell.versions + 1)
      (hnotices : s'.notices = s.notices ++ [notice])
      (hthreshold : notice.threshold = active.threshold)
      (hkind : Announces h outcome l.phase l'.phase notice.kind notice.threshold)
      (hmetrics : s'.metrics = s.metrics.recordActivation notice.kind notice.threshold)

/-- **What a single happening may do.** -/
structure Lawful (h : Happening) (outcome : Option Outcome) (l : Learner) (s : Surroundings)
    (l' : Learner) (s' : Surroundings) : Prop where
  phase : PhaseChange h outcome l.phase l'.phase
  /-- A model is never given up for the rate. -/
  never_degraded : l.phase = .model → l'.phase = .model
  /-- What has been learned is never forgotten. -/
  never_forgotten : l.phase ≠ .warmUp → l'.phase ≠ .warmUp
  heard : Heard h outcome l s l' s'

/-- What a learner starts with: nothing, or what files hold, of which is heard once. -/
inductive Started (l : Learner) (s : Surroundings) : Prop where
  | empty (hphase : l.phase = .warmUp) (hnotices : s.notices = [])
  | restored (active : Active) (notice : Notice) (hactive : l.cell.current = some active)
      (hnotices : s.notices = [notice]) (hkind : notice.kind = .restore)
      (hthreshold : notice.threshold = active.threshold)

/-- **What is counted**: the versions are the notices, and the metrics agree with them. -/
structure Counted (l : Learner) (s : Surroundings) : Prop where
  versions : l.cell.versions = s.notices.length
  version : l.status.version = s.notices.length
  trainings : ∀ kind, s.metrics.trainings.count kind =
    (s.notices.filter fun n => n.kind = kind).length
  gauge : ∀ active, l.cell.current = some active → s.metrics.threshold = active.threshold

namespace Learner

/-- A learner and what is around it after something has happened. -/
def happen (hear : Listener Surroundings) :
    Happening → Learner → Surroundings → Learner × Surroundings
  | .request r, l, s => l.serve hear r s
  | .outside files, l, s => (l, { s with archive := { s.archive with files } })

/-- The outcome of what happens, if it is a training. -/
def happenOutcome? (hear : Listener Surroundings) :
    Happening → Learner → Surroundings → Option Outcome
  | .request r, l, s => l.outcome? hear r s
  | .outside _, _, _ => none

/-- A learner and what is around it after many things have happened. -/
def happenAll (hear : Listener Surroundings) (happenings : List Happening) (l : Learner)
    (s : Surroundings) : Learner × Surroundings :=
  happenings.foldl (fun w h => happen hear h w.1 w.2) (l, s)

end Learner

/-! ### What is heard -/

theorem Notice.listener_spec (callsBack : Bool) (time : Instant) (a : Activation) (l : Learner)
    (notices : List Notice) :
    ∃ notice, notice.kind = a.kind ∧ notice.threshold = a.threshold ∧
      (Notice.listener callsBack time a l notices).2 = notices ++ [notice] := by
  unfold Notice.listener
  split
  · exact ⟨_, rfl, rfl, rfl⟩
  · exact ⟨_, rfl, rfl, rfl⟩

theorem Lawful.of_phase {h : Happening} {outcome : Option Outcome} {l l' : Learner}
    {s s' : Surroundings} (hphase : PhaseChange h outcome l.phase l'.phase)
    (hheard : Heard h outcome l s l' s') : Lawful h outcome l s l' s' := by
  refine ⟨hphase, fun hl => ?_, fun hl => ?_, hheard⟩
  · generalize l.phase = p, l'.phase = q at hphase hl ⊢
    cases hphase with
    | stays => exact hl
    | learned => cases hl
    | recovered => rfl
  · generalize l.phase = p, l'.phase = q at hphase hl ⊢
    cases hphase with
    | stays => exact hl
    | learned => exact absurd rfl hl
    | recovered => nofun

namespace Surroundings

theorem isQuiet_listener (callsBack : Bool) (time : Instant) :
    (Surroundings.listener callsBack time).IsQuiet := fun a l s h =>
  Archive.isQuiet_listener.both
    ((Notice.isQuiet_listener callsBack time).both Metrics.isQuiet_listener)
    a l (s.archive, s.notices, s.metrics) h

/-- An activation is noticed once, and the metrics count it. -/
theorem listener_spec (callsBack : Bool) (time : Instant) (a : Activation) (l : Learner)
    (s : Surroundings) :
    ∃ notice, notice.kind = a.kind ∧ notice.threshold = a.threshold ∧
      (Surroundings.listener callsBack time a l s).2.notices = s.notices ++ [notice] ∧
        (Surroundings.listener callsBack time a l s).2.metrics =
          s.metrics.recordActivation a.kind a.threshold := by
  obtain ⟨notice, hkind, hthreshold, hnotices⟩ := Notice.listener_spec callsBack time a l s.notices
  exact ⟨notice, hkind, hthreshold, hnotices, rfl⟩

end Surroundings

namespace Learner

variable {callsBack : Bool} {time : Instant} {l : Learner} {s : Surroundings}

/-! ### One happening -/

theorem phase_of_byRate {active : Active} {x : Float} (h : l.cell.current = some active)
    (hfound : active.calibration = .byRate x) : l.phase = .fallback := by
  rw [phase_of_current h, ← Active.isByRate_calibration, hfound]
  rfl

theorem phase_of_byModel {active : Active} {m : PcaModel} {x : Float}
    (h : l.cell.current = some active) (hfound : active.calibration = .byModel m x) :
    l.phase = .model := by
  rw [phase_of_current h, ← Active.isByRate_calibration, hfound]
  rfl

theorem phase_ne_warmUp {active : Active} (h : l.cell.current = some active) : l.phase ≠ .warmUp :=
  fun hphase => Option.some_ne_none active (h.symm.trans (phase_eq_warmUp.mp hphase))

theorem phase_ne_warmUp_iff : l.phase ≠ .warmUp → l.phase = .fallback ∨ l.phase = .model := by
  cases l.phase <;> simp

/-- What fits a request changes the phase as it may, and is announced as what it is. -/
theorem Fits.spec {r : Request} {outcome : Option Outcome} {a : Activation} {l' : Learner}
    {active : Active} (h : Fits l r outcome a) (hactive : l'.cell.current = some active)
    (hfound : active.calibration = a.calibration) :
    PhaseChange (.request r) outcome l.phase l'.phase ∧
      Announces (.request r) outcome l.phase l'.phase a.kind a.threshold := by
  cases h with
  | baseline hclean hphase =>
      rw [hphase]
      exact ⟨.learned hclean (phase_ne_warmUp hactive), .baseline (phase_ne_warmUp hactive)⟩
  | recalibrate hphase =>
      rw [hphase, phase_of_byRate hactive hfound]
      exact ⟨.stays _ _ _, .recalibrate⟩
  | retrain hphase =>
      rw [phase_of_byModel hactive hfound]
      refine ⟨?_, .retrain hphase⟩
      rcases phase_ne_warmUp_iff hphase with h | h
      · rw [h]
        exact .recovered
      · rw [h]
        exact .stays _ _ _

/-- **Everything that happens is lawful.** -/
theorem happen_lawful (hready : l.IsReady) (s : Surroundings) (h : Happening) :
    Lawful h (happenOutcome? (Surroundings.listener callsBack time) h l s) l s
      (happen (Surroundings.listener callsBack time) h l s).1
      (happen (Surroundings.listener callsBack time) h l s).2 := by
  cases h with
  | outside files => exact .of_phase (.stays _ _ _) (.nothing nofun rfl rfl rfl)
  | request r =>
      have hserves := serve_spec (Surroundings.isQuiet_listener callsBack time) hready r s
      simp only [happen, happenOutcome?]
      generalize serve (Surroundings.listener callsBack time) r l s = after at hserves ⊢
      cases hserves.change with
      | rests hcell hheard hskipped =>
          have hphase : after.1.phase = l.phase := by rw [phase, phase, hcell]
          exact .of_phase (hphase ▸ .stays _ _ _)
            (.nothing hskipped hcell (congrArg (·.notices) hheard) (congrArg (·.metrics) hheard))
      | brings a told hbrings _ hheard =>
          obtain ⟨samples, -, -, hcell⟩ := hbrings.found
          obtain ⟨active, hswap, hversion, hfound⟩ := l.cell.swap_spec l.settings.scorerPoolSize
            samples.length r.time a.calibration
          have hafter := hcell.trans hswap
          obtain ⟨hphase, hannounced⟩ :=
            hbrings.fits.spec (congrArg ActiveCell.current hafter) hfound
          obtain ⟨notice, hkind, hthreshold, hnotices, hmetrics⟩ :=
            Surroundings.listener_spec callsBack time a told s
          rw [← hheard] at hnotices hmetrics
          rw [← hkind, ← hthreshold] at hannounced hmetrics
          refine .of_phase hphase
            (.once active notice hafter hversion hnotices ?_ hannounced hmetrics)
          rw [hthreshold, Activation.threshold, ← hfound, Active.threshold_calibration]

/-! ### Many happenings -/

theorem happen_isReady (hready : l.IsReady) (s : Surroundings) (h : Happening) :
    (happen (Surroundings.listener callsBack time) h l s).1.IsReady := by
  cases h with
  | outside files => exact hready
  | request r => exact (serve_spec (Surroundings.isQuiet_listener callsBack time) hready r s).ready

end Learner

/-- What comes into force and is heard of once is counted. -/
theorem Counted.next {l l' : Learner} {s s' : Surroundings} (hc : Counted l s) {active : Active}
    {notice : Notice} (hcell : l'.cell = ⟨some active, l.cell.versions + 1⟩)
    (hversion : active.version = l.cell.versions + 1)
    (hnotices : s'.notices = s.notices ++ [notice])
    (hthreshold : notice.threshold = active.threshold)
    (hmetrics : s'.metrics = s.metrics.recordActivation notice.kind notice.threshold) :
    Counted l' s' := by
  have hlength : s'.notices.length = l.cell.versions + 1 := by
    rw [hnotices, List.length_append, List.length_singleton, hc.versions]
  refine ⟨?_, ?_, fun kind => ?_, fun active' hactive' => ?_⟩
  · rw [hcell, hlength]
  · rw [hlength, ← hversion, Learner.status, hcell]
    rfl
  · rw [hmetrics, hnotices, List.filter_append, List.length_append, ← hc.trainings kind]
    refine (Tally.count_increment _ _ _).trans (congrArg (s.metrics.trainings.count kind + ·) ?_)
    by_cases hk : notice.kind = kind
    · simp [hk]
    · simp [hk, Ne.symm hk]
  · rw [hcell] at hactive'
    cases hactive'
    rw [hmetrics, ← hthreshold]
    rfl

theorem Heard.counted {h : Happening} {outcome : Option Outcome} {l l' : Learner}
    {s s' : Surroundings} (hheard : Heard h outcome l s l' s') (hc : Counted l s) :
    Counted l' s' := by
  cases hheard with
  | nothing _ hcell hnotices hmetrics =>
      have hstatus : l'.status.version = l.status.version := by
        rw [Learner.status, Learner.status, hcell]
      refine ⟨?_, ?_, ?_, ?_⟩
      · rw [hcell, hnotices, hc.versions]
      · rw [hstatus, hnotices, hc.version]
      · rw [hnotices, hmetrics]
        exact hc.trainings
      · rw [hcell, hmetrics]
        exact hc.gauge
  | once active notice hcell hversion hnotices hthreshold _ hmetrics =>
      exact hc.next hcell hversion hnotices hthreshold hmetrics

theorem sum_kinds (notices : List Notice) :
    (TrainingKind.all.map fun kind => (notices.filter fun n => n.kind = kind).length).sum =
      notices.length := by
  induction notices with
  | nil => rfl
  | cons n rest ih =>
      simp only [TrainingKind.all, List.map_cons, List.map_nil, List.sum_cons, List.sum_nil,
        List.filter_cons, List.length_cons] at ih ⊢
      cases n.kind <;> simp <;> omega

/-- The trainings that the metrics count, of all kinds together, are the versions. -/
theorem Counted.sum_trainings {l : Learner} {s : Surroundings} (hc : Counted l s) :
    (TrainingKind.all.map s.metrics.trainings.count).sum = l.status.version := by
  rw [hc.version, ← sum_kinds]
  exact congrArg List.sum (List.map_congr_left fun kind _ => hc.trainings kind)

namespace Learner

/-- **Everything stays counted**, whatever happens. -/
theorem counted_happenAll (callsBack : Bool) (time : Instant) (happenings : List Happening)
    (hready : l.IsReady) (hc : Counted l s) :
    (happenAll (Surroundings.listener callsBack time) happenings l s).1.IsReady ∧
      Counted (happenAll (Surroundings.listener callsBack time) happenings l s).1
        (happenAll (Surroundings.listener callsBack time) happenings l s).2 := by
  induction happenings generalizing l s with
  | nil => exact ⟨hready, hc⟩
  | cons h rest ih =>
      exact ih (happen_isReady hready s h) ((happen_lawful hready s h).heard.counted hc)

theorem counted_empty {archive : Archive} (hcell : l.cell = .empty) :
    Counted l ⟨archive, [], .empty⟩ where
  versions := by rw [hcell]; rfl
  version := by rw [status, hcell]; rfl
  trainings := fun _ => rfl
  gauge := fun active hactive => by rw [hcell] at hactive; cases hactive

/-- What is heard when a learner starts. -/
theorem started_resume {settings : Deployment} {archive : Archive} {now : Instant}
    (h : resume (Surroundings.listener callsBack time) settings archive now ⟨archive, [], .empty⟩ =
      .ok (l, s)) : l.IsReady ∧ Started l s ∧ Counted l s := by
  obtain ⟨hready, -, hresumes⟩ := resume_spec (Surroundings.isQuiet_listener callsBack time) h
  refine ⟨hready, ?_⟩
  cases hresumes with
  | empty _ hcell hheard =>
      rw [hheard]
      exact ⟨.empty (phase_eq_warmUp.mpr (by rw [hcell]; rfl)) rfl, counted_empty hcell⟩
  | restored c told _ hcell _ hheard =>
      obtain ⟨active, hswap, hversion, hfound⟩ :=
        ActiveCell.empty.swap_spec l.settings.scorerPoolSize 0 now c
      obtain ⟨notice, hkind, hthreshold, hnotices, hmetrics⟩ :=
        Surroundings.listener_spec callsBack time ⟨.restore, c⟩ told ⟨archive, [], .empty⟩
      rw [← hheard] at hnotices hmetrics
      have hafter := hcell.trans hswap
      have hsame : notice.threshold = active.threshold := by
        rw [hthreshold, Activation.threshold, ← hfound, Active.threshold_calibration]
      rw [← hkind, ← hthreshold] at hmetrics
      refine ⟨.restored active notice (congrArg ActiveCell.current hafter) hnotices hkind hsame, ?_⟩
      have hempty : Counted { l with cell := .empty } ⟨archive, [], .empty⟩ := counted_empty rfl
      exact hempty.next hafter hversion hnotices hsame hmetrics

/-- **The phases of a learner.** Let a learner be started over any files, and let anything happen in
any order: events, trainings, and changes of the files from outside, at any times.  Then the version
is always the number of notices, and the metrics agree with them; and whatever happens next is
lawful. -/
theorem phases_lawful {settings : Deployment} {archive : Archive} {now : Instant} {l₀ : Learner}
    {s₀ : Surroundings}
    (hstart : resume (Surroundings.listener callsBack time) settings archive now
      ⟨archive, [], .empty⟩ = .ok (l₀, s₀))
    (happenings : List Happening)
    (hrun : happenAll (Surroundings.listener callsBack time) happenings l₀ s₀ = (l, s)) :
    Started l₀ s₀ ∧ Counted l s ∧
      (TrainingKind.all.map s.metrics.trainings.count).sum = l.status.version ∧
        ∀ h, Lawful h (happenOutcome? (Surroundings.listener callsBack time) h l s) l s
          (happen (Surroundings.listener callsBack time) h l s).1
          (happen (Surroundings.listener callsBack time) h l s).2 := by
  obtain ⟨hready, hstarted, hcounted⟩ := started_resume hstart
  obtain ⟨hready, hcounted⟩ := counted_happenAll callsBack time happenings hready hcounted
  rw [hrun] at hready hcounted
  exact ⟨hstarted, hcounted, hcounted.sum_trainings, happen_lawful hready s⟩

/-- A learner that learns from one event, whose files are taken away afterwards. -/
theorem phases_lawful_hasty :
    ∃ (l : Learner) (s : Surroundings), l.phase = .fallback ∧ s.notices.length = 1 ∧
      (TrainingKind.all.map s.metrics.trainings.count).sum = l.status.version ∧
        Lawful (.request (.retrain 2))
          (happenOutcome? (Surroundings.listener true 3) (.request (.retrain 2)) l s) l s
          (happen (Surroundings.listener true 3) (.request (.retrain 2)) l s).1
          (happen (Surroundings.listener true 3) (.request (.retrain 2)) l s).2 := by
  let settings : Deployment :=
    { Deployment.plain with
      baselineSize := 1, baselineCap := 1, paths := some (.inDirectory "state") }
  let event : Event := ⟨none, 5.0, 200, false, false, "GET", "/", 3.0⟩
  let happenings : List Happening :=
    [.request (.observe event 0), .outside .empty, .request (.observe event 1)]
  have hrun : (match resume (Surroundings.listener true 3) settings ⟨settings.paths, .empty⟩ 0
      ⟨⟨settings.paths, .empty⟩, [], .empty⟩ with
    | .error _ => false
    | .ok (l, s) =>
      let after := happenAll (Surroundings.listener true 3) happenings l s
      decide (after.1.phase = .fallback) && after.2.notices.length == 1) = true := by decide +kernel
  split at hrun
  · cases hrun
  · rename_i l₀ s₀ hstart
    obtain ⟨hphase, hnotices⟩ := Bool.and_eq_true_iff.mp hrun
    obtain ⟨-, -, hsum, hlawful⟩ := phases_lawful hstart happenings rfl
    exact ⟨_, _, of_decide_eq_true hphase, eq_of_beq hnotices, hsum, hlawful _⟩

end Learner

end TrafficWatch
