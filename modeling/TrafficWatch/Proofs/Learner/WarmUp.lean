import TrafficWatch.Proofs.Learner.Remembered

/-!
# Learner — Warm-up

How long a learner warms up that starts with nothing.  It learns from the first clean event with
which there are enough and something is found in the latest of them (`Deployment.Teaches`).  Until then
it remembers clean events and does nothing else (`Learner.WarmingUp`).  `Learner.warms_up` says this
of every run, by induction on the requests, of which each leaves the learner warming up or is the one
it learns from (`Learner.Progress`).
-/

namespace TrafficWatch

variable {σ : Type}

/-- A first training finds something, once such samples have been seen. -/
def Deployment.Teaches (s : Deployment) (seen : List Sample) (c : Calibration) : Prop :=
  s.baselineSize ≤ seen.length ∧
    s.calibrate ((seen.rtake s.baselineCap).map (·.features)) = .ok c

namespace Learner

/-- **What warming up means** for a learner that has seen some samples, and for those who listen. -/
structure WarmingUp (hear : Listener σ) (settings : Deployment) (seen : List Sample) (l : Learner)
    (s : σ) : Prop where
  /-- It remembers the latest samples. -/
  samples : l.buffer.samples = seen.rtake settings.baselineCap
  size : l.buffer.size = min seen.length settings.baselineCap
  observe_normal : ∀ e now, (l.observe hear e now s).1 = .normal
  retrain_eq : ∀ now, l.retrain hear now s = (.skipped .notTrained, l, s)
  /-- An event that something objected to changes nothing. -/
  observe_unclean : ∀ e now, e.wafHit = true ∨ e.schemaError = true →
    l.observe hear e now s = (.normal, l, s)
  /-- A clean event is remembered and changes nothing else, as long as nothing is found. -/
  observe_early : ∀ e now, e.isClean = true →
    (∀ c, ¬ settings.Teaches (seen ++ [⟨now, e.features⟩]) c) →
      l.observe hear e now s = (.normal, l.remember e.features now, s)
  /-- What is found comes into force. -/
  observe_teaches : ∀ e now c, e.isClean = true →
    settings.Teaches (seen ++ [⟨now, e.features⟩]) c →
      ∃ active, (l.observe hear e now s).2.1.cell.current = some active ∧ active.calibration = c ∧
        (l.observe hear e now s).2.1.status.trainedSamples =
          min (seen.length + 1) settings.baselineCap

/-- A learner that has seen some samples and has learned nothing. -/
structure IsWarming (settings : Deployment) (seen : List Sample) (l : Learner) : Prop where
  idle : l.isTraining = false
  settings_eq : l.settings = settings
  current : l.cell.current = none
  sound : settings.flaw? = none
  capacity : l.buffer.capacity = settings.baselineCap
  samples : l.buffer.samples = seen.rtake settings.baselineCap

variable {hear : Listener σ} {settings : Deployment} {seen : List Sample} {l : Learner}

namespace IsWarming

theorem room (h : IsWarming settings seen l) : 0 < settings.baselineCap :=
  Settings.baselineCap_pos h.sound

theorem size (h : IsWarming settings seen l) :
    l.buffer.size = min seen.length settings.baselineCap := by
  rw [BaselineBuffer.size, h.samples, List.rtake, List.length_drop]
  omega

theorem remember (h : IsWarming settings seen l) (v : Features) (now : Instant) :
    IsWarming settings (seen ++ [⟨now, v⟩]) (l.remember v now) where
  idle := h.idle
  settings_eq := h.settings_eq
  current := h.current
  sound := h.sound
  capacity := h.capacity
  samples := by
    have hsamples := h.samples
    rw [← h.capacity] at hsamples ⊢
    exact BaselineBuffer.samples_push hsamples (h.capacity ▸ h.room) ⟨now, v⟩

/-- What has been seen decides whether something is found. -/
theorem firstFound?_eq (h : IsWarming settings seen l) {c : Calibration} :
    l.firstFound? = some c ↔ settings.Teaches seen c := by
  have hle := Settings.baselineSize_le_cap h.sound
  rw [firstFound?_eq_some, h.size, h.settings_eq, BaselineBuffer.features, h.samples,
    Deployment.Teaches, Nat.le_min, and_iff_left hle]

theorem observe_early (h : IsWarming settings seen l) (hear : Listener σ) {e : Event}
    (hclean : e.isClean = true) {now : Instant}
    (hnone : ∀ c, ¬ settings.Teaches (seen ++ [⟨now, e.features⟩]) c) (s : σ) :
    l.observe hear e now s = (.normal, l.remember e.features now, s) := by
  have hnext := h.remember e.features now
  have hfound : (l.remember e.features now).firstFound? = none :=
    Option.eq_none_iff_forall_ne_some.mpr fun c hc => hnone c (hnext.firstFound?_eq.mp hc)
  exact observe_of_unfound hear h.idle h.current hclean hfound s

theorem observe_teaches (h : IsWarming settings seen l) (hquiet : hear.IsQuiet) {e : Event}
    (hclean : e.isClean = true) {now : Instant} {c : Calibration}
    (hteaches : settings.Teaches (seen ++ [⟨now, e.features⟩]) c) (s : σ) :
    ∃ active, (l.observe hear e now s).2.1.cell.current = some active ∧ active.calibration = c ∧
      active.samples = min (seen.length + 1) settings.baselineCap := by
  have hnext := h.remember e.features now
  have hfound := hnext.firstFound?_eq.mpr hteaches
  have hsize := hnext.size
  rw [List.length_append, List.length_singleton] at hsize
  rw [observe_of_found hear h.idle h.current hclean hfound]
  refine ⟨_, congrArg ActiveCell.current (cell_conclude hquiet (isRetraining_activate _ _ _ _) _ _),
    ?_, ?_⟩
  · exact Active.calibration_ofCalibration _ _ _ c
  · exact (Active.samples_ofCalibration _ _ _ c).trans hsize

theorem warmingUp (h : IsWarming settings seen l) (hquiet : hear.IsQuiet) (s : σ) :
    WarmingUp hear settings seen l s where
  samples := h.samples
  size := h.size
  observe_normal := fun e now => by rw [observe_of_none hear h.current]
  retrain_eq := fun now => retrain_of_none hear h.idle h.current now s
  observe_unclean := fun e now hflagged => by
    refine observe_of_unclean hear h.current ?_ now s
    rcases hflagged with hflagged | hflagged <;> simp [Event.isClean, hflagged]
  observe_early := fun e now hclean hnone => h.observe_early hear hclean hnone s
  observe_teaches := fun e now c hclean hteaches => by
    obtain ⟨active, hactive, hfound, hsamples⟩ := h.observe_teaches hquiet hclean hteaches s
    refine ⟨active, hactive, hfound, ?_⟩
    rw [status, hactive, ← hsamples]
    rfl

theorem isReady (h : IsWarming settings seen l) : l.IsReady where
  idle := h.idle
  size := by
    rw [h.size, h.capacity]
    exact Nat.min_le_right _ _
  capacity := by
    rw [h.capacity, h.settings_eq]
    exact (Nat.max_eq_left h.room).symm

/-! ### One request -/

/-- A request that hands in nothing changes nothing. -/
theorem serve_of_none (h : IsWarming settings seen l) (hear : Listener σ) {r : Request}
    (hr : r.sample? = none) (s : σ) : serve hear r l s = (l, s) := by
  cases r with
  | retrain now => exact congrArg Prod.snd (retrain_of_none hear h.idle h.current now s)
  | observe e now =>
      have hunclean : e.isClean = false := by
        cases hclean : e.isClean with
        | false => rfl
        | true => simp [Request.sample?, hclean] at hr
      exact congrArg Prod.snd (observe_of_unclean hear h.current hunclean now s)

theorem serve_of_not_teaches (h : IsWarming settings seen l) (hear : Listener σ) {r : Request}
    {x : Sample} (hr : r.sample? = some x) (hnone : ∀ c, ¬ settings.Teaches (seen ++ [x]) c) (s : σ) :
    (serve hear r l s).2 = s ∧ IsWarming settings (seen ++ [x]) (serve hear r l s).1 := by
  obtain ⟨e, now, rfl, hclean, rfl⟩ := Request.sample?_eq_some hr
  have hserve : serve hear (.observe e now) l s = (l.remember e.features now, s) :=
    congrArg Prod.snd (h.observe_early hear hclean hnone s)
  rw [hserve]
  exact ⟨rfl, h.remember e.features now⟩

theorem serve_of_teaches (h : IsWarming settings seen l) (hquiet : hear.IsQuiet) {r : Request}
    {x : Sample} (hr : r.sample? = some x) {c : Calibration}
    (hteaches : settings.Teaches (seen ++ [x]) c) (s : σ) :
    (serve hear r l s).1.phase ≠ .warmUp := by
  obtain ⟨e, now, rfl, hclean, rfl⟩ := Request.sample?_eq_some hr
  obtain ⟨active, hactive, -⟩ := h.observe_teaches hquiet hclean hteaches s
  rw [Ne, phase_eq_warmUp]
  exact fun hnone => Option.some_ne_none active (hactive.symm.trans hnone)

end IsWarming

/-! ### Runs -/

theorem serveAll_snoc (hear : Listener σ) (requests : List Request) (r : Request) (l : Learner)
    (s : σ) :
    serveAll hear (requests ++ [r]) l s =
      serve hear r (serveAll hear requests l s).1 (serveAll hear requests l s).2 := by
  induction requests generalizing l s with
  | nil => rfl
  | cons r' rest ih => exact ih _ _

/-- What has been learned is not forgotten. -/
theorem phase_serve_ne_warmUp (hquiet : hear.IsQuiet) (hready : l.IsReady) (hphase : l.phase ≠ .warmUp)
    (r : Request) (s : σ) : (serve hear r l s).1.phase ≠ .warmUp := by
  rw [Ne, phase_eq_warmUp] at hphase ⊢
  cases (serve_spec hquiet hready r s).change with
  | rests hcell => rwa [hcell]
  | brings a told hbrings =>
      obtain ⟨samples, -, -, hcell⟩ := hbrings.found
      rw [hcell]
      nofun

/-- **How far a learner has come** that has seen some samples: it warms up, since none of them was
enough, or it has learned from one of them. -/
inductive Progress (settings : Deployment) (s₀ : σ) (seen : List Sample) (l : Learner) (s : σ) :
    Prop where
  | warming (h : IsWarming settings seen l) (hheard : s = s₀)
      (hnone : ∀ earlier c, earlier <+: seen → ¬ settings.Teaches earlier c)
  | learned (hready : l.IsReady) (hphase : l.phase ≠ .warmUp) (earlier : List Sample)
      (c : Calibration) (hearlier : earlier <+: seen) (hteaches : settings.Teaches earlier c)

/-- A request leaves the learner warming up, or it is the one from which it learns. -/
theorem Progress.serve {s₀ s : σ} {requests : List Request} (hquiet : hear.IsQuiet)
    (h : Progress settings s₀ (samplesOf requests) l s) (r : Request) :
    Progress settings s₀ (samplesOf (requests ++ [r])) (serve hear r l s).1 (serve hear r l s).2 := by
  rw [samplesOf_snoc]
  cases h with
  | learned hready hphase earlier c hearlier hteaches =>
      exact .learned (serve_spec hquiet hready r s).ready
        (phase_serve_ne_warmUp hquiet hready hphase r s) earlier c
        (hearlier.trans (List.prefix_append _ _)) hteaches
  | warming h hheard hnone =>
      cases hsample : r.sample? with
      | none =>
          rw [h.serve_of_none hear hsample]
          exact .warming (by simpa using h) hheard (by simpa using hnone)
      | some x =>
          by_cases hteaches : ∃ c, settings.Teaches (samplesOf requests ++ [x]) c
          · obtain ⟨c, hteaches⟩ := hteaches
            exact .learned (serve_spec hquiet h.isReady r s).ready
              (h.serve_of_teaches hquiet hsample hteaches s) _ c (List.prefix_refl _) hteaches
          · obtain ⟨hheard', hnext⟩ :=
              h.serve_of_not_teaches hear hsample (fun c hc => hteaches ⟨c, hc⟩) s
            refine .warming hnext (hheard'.trans hheard) fun earlier c hearlier hc => ?_
            rcases List.prefix_concat_iff.mp hearlier with rfl | hearlier
            · exact hteaches ⟨c, hc⟩
            · exact hnone earlier c hearlier hc

theorem Progress.serveAll (hquiet : hear.IsQuiet) (h : IsWarming settings [] l)
    (requests : List Request) (s₀ : σ) :
    Progress settings s₀ (samplesOf requests) (serveAll hear requests l s₀).1
      (serveAll hear requests l s₀).2 := by
  induction requests using List.reverseRecOn with
  | nil =>
      refine .warming h rfl fun earlier c hearlier hteaches => ?_
      have hpos := Settings.baselineSize_pos h.sound
      have hle := hteaches.1
      rw [List.prefix_nil.mp hearlier, List.length_nil] at hle
      omega
  | append_singleton requests r ih =>
      rw [serveAll_snoc]
      exact ih.serve hquiet r

/-- A learner that starts with nothing warms up. -/
theorem isWarming_of_resume {archive : Archive} {now : Instant} {s s' : σ}
    (h : resume hear settings archive now s = .ok (l, s'))
    (hheld : ∀ c, archive.held ≠ .ok (some c)) : IsWarming settings [] l ∧ s' = s := by
  obtain ⟨l₁, hstart, ⟨c, hc, -⟩ | ⟨-, rfl, rfl⟩⟩ := resume_eq_ok h
  · exact absurd hc (hheld c)
  · have hsound := flaw?_of_start hstart
    rw [start_spec hstart]
    exact ⟨⟨rfl, rfl, rfl, hsound, Nat.max_eq_left (Settings.baselineCap_pos hsound),
      (List.rtake_nil _).symm⟩, rfl⟩

/-- **How a learner warms up.** Let a learner be started over files from which nothing can be read,
and let it be asked anything.  It warms up until it has seen a clean event with which something is
found, and no longer; while it does, nobody has heard anything, and what the next request does is the
law of warming up.  With fewer clean events than it waits for, it finds everything normal. -/
theorem warms_up (hquiet : hear.IsQuiet) {archive : Archive} {start : Instant} {s₀ s₁ s : σ}
    {l₀ : Learner} (hstart : resume hear settings archive start s₀ = .ok (l₀, s₁))
    (hheld : ∀ c, archive.held ≠ .ok (some c)) (requests : List Request)
    (hrun : serveAll hear requests l₀ s₁ = (l, s)) :
    (l.phase = .warmUp ↔
      ∀ earlier c, earlier <+: samplesOf requests → ¬ settings.Teaches earlier c) ∧
    (l.phase = .warmUp → s = s₀ ∧ WarmingUp hear settings (samplesOf requests) l s) ∧
    ((samplesOf requests).length < settings.baselineSize →
      l.phase = .warmUp ∧ ∀ e now, (l.observe hear e now s).1 = .normal) := by
  obtain ⟨hwarming, rfl⟩ := isWarming_of_resume hstart hheld
  have hprogress : Progress settings s₁ (samplesOf requests) l s := by
    have h := Progress.serveAll hquiet hwarming requests s₁
    rwa [hrun] at h
  cases hprogress with
  | warming h hheard hnone =>
      have hphase := phase_eq_warmUp.mpr h.current
      have hlaw := h.warmingUp hquiet s
      exact ⟨iff_of_true hphase hnone, fun _ => ⟨hheard, hlaw⟩,
        fun _ => ⟨hphase, hlaw.observe_normal⟩⟩
  | learned hready hphase earlier c hearlier hteaches =>
      refine ⟨iff_of_false hphase fun h => h earlier c hearlier hteaches,
        fun h => absurd h hphase, fun hfew => ?_⟩
      have hle := Nat.le_trans hteaches.1 hearlier.length_le
      omega

/-- A learner that waits for one event and remembers one.  It learns nothing from an event whose rate
is no number, and goes on; it learns from the next one. -/
theorem warms_up_hasty :
    let settings : Deployment := { Deployment.plain with baselineSize := 1, baselineCap := 1 }
    let event (rate : Float) : Event := ⟨none, rate, 200, false, false, "GET", "/", 3.0⟩
    let requests : List Request :=
      [.observe (event (0.0 / 0.0)) 0, .retrain 1, .observe { event 1.0 with wafHit := true } 2]
    ∃ l₀, resume unheard settings ⟨none, .empty⟩ 0 () = .ok (l₀, ()) ∧
      let l := (serveAll unheard requests l₀ ()).1
      l.phase = .warmUp ∧ l.buffer.size = 1 ∧
        l.retrain unheard 3 () = (.skipped .notTrained, l, ()) ∧
          ∃ active, (l.observe unheard (event 5.0) 4 ()).2.1.cell.current = some active ∧
            active.calibration.isByRate = true := by
  intro settings event requests
  have hrun : (resume unheard settings ⟨none, .empty⟩ 0 ()).toOption.any (fun start =>
      decide ((serveAll unheard requests start.1 start.2).1.phase = .warmUp)) = true := by
    decide +kernel
  have hnext : (settings.calibrate [(event 5.0).features]).toOption.any (·.isByRate) = true := by
    decide +kernel
  obtain ⟨⟨l₀, s₁⟩, hstart, hrun⟩ := exists_ok hrun
  obtain ⟨c, hfound, hrate⟩ := exists_ok hnext
  have hphase := of_decide_eq_true hrun
  obtain ⟨-, hlaw, -⟩ := warms_up isQuiet_unheard hstart nofun requests rfl
  obtain ⟨-, hlaw⟩ := hlaw hphase
  obtain ⟨active, hactive, hcalibration, -⟩ :=
    hlaw.observe_teaches (event 5.0) 4 c rfl ⟨by decide, hfound⟩
  exact ⟨l₀, hstart, hphase, hlaw.size, hlaw.retrain_eq 3, active, hactive, hcalibration ▸ hrate⟩

end Learner

end TrafficWatch
