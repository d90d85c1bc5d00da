import TrafficWatch.Proofs.Files.Keep
import TrafficWatch.Proofs.Learner.OnTime
import TrafficWatch.Proofs.Learner.Reachable

/-!
# Learner — Restart

A learner that is started again goes on as it was.  As long as everything that came into force could
be kept, the files hold exactly what is in force (`Learner.IsKept`), whatever they held at first;
every request preserves this (`IsKept.serve`).  So a new learner over the same files has the same
phase and the same threshold and judges every vector alike (`Learner.restart_agrees`).

For this the three files have to be different ones, and none of them the draft of one that is written
after it (`ModelPaths.Separate`), as is so below any directory.  Settings may name one file twice, and
then what is kept is lost (`Learner.restart_differs`).
-/

namespace TrafficWatch

variable {σ τ : Type}

theorem Learner.phase_congr {l l' : Learner} {active active' : Active}
    (h : l.cell.current = some active) (h' : l'.cell.current = some active')
    (hsame : active'.calibration = active.calibration) : l'.phase = l.phase := by
  rw [phase_of_current h, phase_of_current h', ← Active.isByRate_calibration, hsame,
    Active.isByRate_calibration]

/-! ### Files that hold what is in force -/

/-- Whether the archive can keep what was found. -/
def Archive.canKeep (a : Archive) (c : Calibration) : Bool :=
  match a.paths with
  | none => true
  | some paths => (a.files.keep paths c).1

/-- What can be kept depends on nothing but whether it is a model. -/
theorem Archive.canKeep_congr (a : Archive) {c c' : Calibration}
    (hkind : c.isByRate = c'.isByRate) : a.canKeep c = a.canKeep c' := by
  unfold canKeep
  cases a.paths with
  | none => rfl
  | some paths => exact a.files.keep_fst_congr paths hkind

/-- The archive, and whether it could keep everything so far. -/
def Archive.watched : Listener (Archive × Bool) := fun a l (archive, kept) =>
  (l, if a.kind = .restore then (archive, kept)
    else (archive.keep a.calibration, kept && archive.canKeep a.calibration))

/-- To watch an archive changes nothing about it. -/
theorem Archive.watched_fst (a : Activation) (l : Learner) (archive : Archive) (kept : Bool) :
    (watched a l (archive, kept)).2.1 = (listener a l archive).2 := by
  simp only [watched, listener]
  split <;> rfl

theorem Archive.isQuiet_watched : Archive.watched.IsQuiet := fun _ l _ _ => .refl l

theorem Archive.held_of_paths {archive : Archive} {paths : ModelPaths}
    (h : archive.paths = some paths) :
    archive.held = paths.load (paths.look archive.files) := by
  rw [held, h]

namespace Learner

/-- As long as everything could be kept, the files hold what is in force. -/
structure IsKept (paths : ModelPaths) (l : Learner) (s : Archive × Bool) : Prop where
  paths : s.1.paths = some paths
  held : s.2 = true → ∀ active, l.cell.current = some active →
    s.1.held = .ok (some active.calibration)

variable {paths : ModelPaths} {l l' : Learner} {s s' : Archive × Bool}

/-- What comes into force is kept. -/
theorem IsKept.activate (hpaths : paths.Separate) (h : IsKept paths l s) {a : Activation}
    (hkind : a.kind ≠ .restore) (hkeepable : a.calibration.IsKeepable) {active : Active}
    (hactive : l'.cell.current = some active) (hfound : active.calibration = a.calibration)
    (told : Learner) (hheard : s' = (Archive.watched a told s).2) : IsKept paths l' s' := by
  obtain ⟨archive, kept⟩ := s
  obtain ⟨harchive, -⟩ := h
  have hs' : s' = (archive.keep a.calibration, kept && archive.canKeep a.calibration) := by
    rw [hheard, Archive.watched, if_neg hkind]
  have hkeep : archive.keep a.calibration =
      { archive with files := (archive.files.keep paths a.calibration).2 } := by
    rw [Archive.keep, harchive]
  have hcan : archive.canKeep a.calibration = (archive.files.keep paths a.calibration).1 := by
    rw [Archive.canKeep, harchive]
  have hsame : (archive.keep a.calibration).paths = some paths := by
    rw [hkeep]
    exact harchive
  subst hs'
  refine ⟨hsame, fun hkept active' hactive' => ?_⟩
  cases hactive.symm.trans hactive'
  have hall := (Bool.and_eq_true_iff.mp hkept).2
  rw [hcan] at hall
  rw [hfound, Archive.held_of_paths hsame, hkeep]
  exact ModelPaths.load_keep hpaths hkeepable (Prod.ext hall rfl)

/-- What a request brings can be kept. -/
theorem Brings.isKeepable {r : Request} {outcome : Option Outcome} {a : Activation}
    {cell : ActiveCell} (h : Brings l r outcome a cell) (hready : l.IsReady)
    (hcap : l.settings.baselineCap < twoTo 64) : a.calibration.IsKeepable := by
  obtain ⟨samples, hle, hfound, -⟩ := h.found
  have hone : 1 < twoTo 64 := by decide
  refine Deployment.calibrate_isKeepable hfound (Nat.lt_of_le_of_lt hle ?_)
  rw [hready.capacity]
  exact max_lt hcap hone

theorem Fits.kind_ne_restore {r : Request} {outcome : Option Outcome} {a : Activation}
    (h : Fits l r outcome a) : a.kind ≠ .restore := by
  cases h <;> nofun

/-- What a request brings is kept at once. -/
theorem serve_watched (hidle : l.isTraining = false) {r : Request} {a : Activation}
    (h : l.brought? r = some a) (hkind : a.kind ≠ .restore) (s : (Archive × Bool) × Unit) :
    serve (Archive.watched.both unheard) r l s =
      ({ (l.noted r).activate a.calibration (l.noted r).buffer.size r.time with isTraining := false },
        (s.1.1.keep a.calibration, s.1.2 && s.1.1.canKeep a.calibration), ()) := by
  rw [serve_of_brought _ hidle h]
  simp only [conclude, Listener.both, Archive.watched, if_neg hkind, unheard]
  rfl

/-- **A learner recovers from a threshold for the rate** as soon as its samples allow a model, which is
kept where any other one could be. -/
theorem exists_recovery {settings : Deployment} (hlawful : settings.products.IsLawful)
    (hsound : settings.flaw? = none)
    (hl : Reachable (Archive.watched.both unheard) settings l) (hphase : l.phase = .fallback)
    {now : Instant} (hallows : settings.AllowsModel (l.forget now).buffer.features)
    {s : (Archive × Bool) × Unit} (hkept : s.1.2 = true) {model : PcaModel} {threshold : Float}
    (hcan : s.1.1.canKeep (.byModel model threshold) = true) :
    ∃ l' archive active,
      serve (Archive.watched.both unheard) (.retrain now) l s = (l', (archive, true), ()) ∧
        l'.cell.current = some active ∧ active.version = l.cell.versions + 1 ∧
        l'.phase = .model := by
  have hquiet := Archive.isQuiet_watched.both isQuiet_unheard
  obtain ⟨active, hactive⟩ : ∃ active, l.cell.current = some active :=
    Option.ne_none_iff_exists'.mp fun hnone => by
      rw [phase_eq_warmUp.mpr hnone] at hphase
      cases hphase
  obtain ⟨m, x, hfound⟩ := exists_laterTraining_of_allowsModel hlawful hsound hallows active
  have hbrought : l.brought? (.retrain now) = some ⟨.retrain, .byModel m x⟩ := by
    rw [brought?, hactive, Option.bind_some, found, hl.settings_eq hquiet, hfound]
    rfl
  have hkind : TrainingKind.retrain ≠ .restore := by decide
  have hserve := serve_watched (hl.isReady hquiet).idle hbrought hkind s
  have hcan : s.1.1.canKeep (.byModel m x) = true := by
    rw [← hcan]
    exact s.1.1.canKeep_congr rfl
  rw [hkept, hcan] at hserve
  refine ⟨_, _, _, hserve, rfl, ?_, rfl⟩
  exact congrArg (·.versions + 1) (Alike.noted l (.retrain now)).cell

section Watched

variable {other : Listener τ}

/-- **Every request leaves the files with what is in force**, if it could be kept. -/
theorem IsKept.serve (hpaths : paths.Separate) (hother : other.IsQuiet) (hready : l.IsReady)
    (hcap : l.settings.baselineCap < twoTo 64) (h : IsKept paths l s) (r : Request) (state : τ) :
    IsKept paths (Learner.serve (Archive.watched.both other) r l (s, state)).1
      (Learner.serve (Archive.watched.both other) r l (s, state)).2.1 := by
  have hserves := serve_spec (Archive.isQuiet_watched.both hother) hready r (s, state)
  generalize Learner.serve (Archive.watched.both other) r l (s, state) = after at hserves ⊢
  cases hserves.change with
  | rests hcell hheard =>
      -- nothing was kept either
      rw [hheard]
      refine ⟨h.paths, fun hkept active hactive => ?_⟩
      rw [hcell] at hactive
      exact h.held hkept active hactive
  | brings a told hbrings _ hheard =>
      obtain ⟨samples, -, -, hcell⟩ := hbrings.found
      obtain ⟨active, hswap, -, hfound⟩ := l.cell.swap_spec l.settings.scorerPoolSize
        samples.length r.time a.calibration
      have hactive := congrArg ActiveCell.current (hcell.trans hswap)
      exact h.activate hpaths hbrings.fits.kind_ne_restore (hbrings.isKeepable hready hcap) hactive
        hfound told (by rw [hheard]; rfl)

theorem IsKept.serveAll (hpaths : paths.Separate) (hother : other.IsQuiet) (requests : List Request)
    (hready : l.IsReady) (hcap : l.settings.baselineCap < twoTo 64) (h : IsKept paths l s)
    (state : τ) :
    IsKept paths (Learner.serveAll (Archive.watched.both other) requests l (s, state)).1
      (Learner.serveAll (Archive.watched.both other) requests l (s, state)).2.1 := by
  induction requests generalizing l s state with
  | nil => exact h
  | cons r rest ih =>
      have hserves := serve_spec (Archive.isQuiet_watched.both hother) hready r (s, state)
      have hkept := h.serve hpaths hother hready hcap r state
      exact ih hserves.ready (hserves.settings ▸ hcap) hkept _

/-- A learner that starts from files holds what they hold. -/
theorem IsKept.of_resume (hother : other.IsQuiet) {settings : Deployment}
    (hpaths : settings.paths = some paths) {files : FileTree} {now : Instant} {state : τ}
    {after : (Archive × Bool) × τ}
    (h : resume (Archive.watched.both other) settings ⟨settings.paths, files⟩ now
      ((⟨settings.paths, files⟩, true), state) = .ok (l, after)) : IsKept paths l after.1 := by
  obtain ⟨-, -, hresumes⟩ := resume_spec (Archive.isQuiet_watched.both hother) h
  cases hresumes with
  | empty _ hcell hheard =>
      rw [hheard]
      refine ⟨hpaths, fun _ active hactive => ?_⟩
      rw [hcell] at hactive
      cases hactive
  | restored c told hheld hcell _ hheard =>
      rw [hheard]
      refine ⟨hpaths, fun _ active hactive => ?_⟩
      obtain ⟨restored, hswap, -, hfound⟩ :=
        ActiveCell.empty.swap_spec l.settings.scorerPoolSize 0 now c
      rw [hcell, hswap] at hactive
      cases hactive
      rw [hfound]
      exact hheld

/-- **A restart reproduces the learner.** Let a learner be started over files that are different ones
and hold anything, and let it serve any requests, such that everything that came into force could be
kept and nobody else changed the files.  If something is in force, the files hold exactly that; and a
learner that is started over these files with the same settings, whoever listens to it, has the same
phase and the same threshold, and judges every vector alike. -/
theorem restart_agrees {settings : Deployment} (hpaths : settings.paths = some paths)
    (hseparate : paths.Separate) (hcap : settings.baselineCap < twoTo 64)
    (files : FileTree) (now : Instant) (hother : other.IsQuiet) (state : τ)
    {l₀ : Learner} {s₀ : (Archive × Bool) × τ}
    (hstart : resume (Archive.watched.both other) settings ⟨settings.paths, files⟩ now
      ((⟨settings.paths, files⟩, true), state) = .ok (l₀, s₀))
    (requests : List Request) {archive : Archive} {state' : τ}
    (hrun : serveAll (Archive.watched.both other) requests l₀ s₀ = (l, (archive, true), state'))
    {active : Active} (hactive : l.cell.current = some active) :
    paths.load (paths.look archive.files) = .ok (some active.calibration) ∧
      ∀ {ρ : Type} (hear : Listener ρ) (_ : hear.IsQuiet) (later : Instant) (r : ρ),
        ∃ l' r' active', resume hear settings archive later r = .ok (l', r') ∧
          l'.cell.current = some active' ∧ l'.phase = l.phase ∧
            active'.threshold = active.threshold ∧ ∀ v, active'.evaluate v = active.evaluate v := by
  obtain ⟨hready, hsettings, -⟩ := resume_spec (Archive.isQuiet_watched.both hother) hstart
  have hkept := (IsKept.of_resume hother hpaths hstart).serveAll hseparate hother requests hready
    (hsettings ▸ hcap) s₀.2
  rw [hrun] at hkept
  have hheld := hkept.held rfl active hactive
  refine ⟨(Archive.held_of_paths hkept.paths).symm.trans hheld, fun hear hquiet later r => ?_⟩
  obtain ⟨l₁, hl₁, -⟩ := bind_eq_ok hstart
  obtain ⟨l', r', hresume⟩ := exists_resume hl₁ hear archive later r
  obtain ⟨-, -, hresumes⟩ := resume_spec hquiet hresume
  -- what the files hold comes into force again
  cases hresumes with
  | empty hnone => exact absurd hheld (hnone _)
  | restored c _ hc hcell =>
      obtain ⟨active', hswap, -, hfound⟩ :=
        ActiveCell.empty.swap_spec l'.settings.scorerPoolSize 0 later c
      have hactive' := congrArg ActiveCell.current (hcell.trans hswap)
      have hsame : active'.calibration = active.calibration := by
        rw [hfound]
        exact Option.some.inj (Except.ok.inj (hc.symm.trans hheld))
      refine ⟨l', r', active', hresume, hactive', phase_congr hactive hactive' hsame, ?_,
        Active.evaluate_congr hsame⟩
      rw [← Active.threshold_calibration, hsame, Active.threshold_calibration]

end Watched

/-- Over a file that holds no model, a learner takes its threshold from the rate of one event, and
recovers from this with the next one. -/
theorem restart_agrees_hasty :
    let settings : Deployment :=
      { Deployment.plain with
        baselineSize := 1, minSamples := 2, paths := some (.inDirectory "state") }
    let files := FileTree.empty.withEntry (.parse "state/anomaly_model.json")
      (.file "no model".toUTF8)
    let requests : List Request :=
      [.observe (eventAtRate 5.0) 0, .observe (eventAtRate 2.0) 1, .retrain 2]
    ∃ l₀ s₀ l archive active,
      resume (Archive.watched.both unheard) settings ⟨settings.paths, files⟩ 0
          ((⟨settings.paths, files⟩, true), ()) = .ok (l₀, s₀) ∧
        serveAll (Archive.watched.both unheard) requests l₀ s₀ = (l, (archive, true), ()) ∧
        l.cell.current = some active ∧ active.version = 2 ∧ l.phase = .model ∧
        (ModelPaths.inDirectory "state").load
            ((ModelPaths.inDirectory "state").look archive.files) = .ok (some active.calibration) ∧
        ∃ l' r' active', resume unheard settings archive 3 () = .ok (l', r') ∧
          l'.cell.current = some active' ∧ l'.phase = l.phase ∧
            active'.threshold = active.threshold ∧ ∀ v, active'.evaluate v = active.evaluate v := by
  intro settings files requests
  let hear := Archive.watched.both unheard
  let model : PcaModel := ⟨[], [], [], [], 0⟩
  -- the rate comes into force and is kept, and then there is enough for a model
  have hrun : (resume hear settings ⟨settings.paths, files⟩ 0
      ((⟨settings.paths, files⟩, true), ())).toOption.any (fun start =>
      let after := serveAll hear (requests.take 2) start.1 start.2
      decide (after.1.phase = .fallback ∧ after.1.cell.versions = 1 ∧ after.2.1.2 = true ∧
        after.2.1.1.canKeep (.byModel model 0.0) = true ∧
        settings.AllowsModel (after.1.forget 2).buffer.features)) = true := by decide +kernel
  obtain ⟨⟨l₀, s₀⟩, hstart, hrun⟩ := exists_ok hrun
  obtain ⟨hphase, hversions, hkept, hcan, hallows⟩ := of_decide_eq_true hrun
  have hreachable : Reachable hear settings (serveAll hear (requests.take 2) l₀ s₀).1 :=
    ((Reachable.start hstart).serve _ s₀).serve _ _
  obtain ⟨l, archive, active, hlast, hactive, hversion, hmodel⟩ := exists_recovery
    ProductSum.isLawful_inOrder (Option.isNone_iff_eq_none.mp (by decide +kernel)) hreachable hphase
    hallows hkept hcan
  have hall : serveAll hear requests l₀ s₀ = (l, (archive, true), ()) := hlast
  obtain ⟨hload, hagrees⟩ := restart_agrees rfl (ModelPaths.apart_inDirectory "state").separate
    (by decide) files 0 isQuiet_unheard () hstart requests hall hactive
  exact ⟨l₀, s₀, l, archive, active, hstart, hall, hactive, hversion.trans (by rw [hversions]),
    hmodel, hload, hagrees unheard isQuiet_unheard 3 ()⟩

/-- **A file that has two names is lost.**  Settings may put the threshold and the marker in the same
place.  What comes into force can then be kept, but the marker is written over the threshold: the files
cannot be read, and a learner that is started over them warms up. -/
theorem restart_differs :
    let paths : ModelPaths := ⟨"m", "x", "x"⟩
    let settings : Deployment := { Deployment.plain with baselineSize := 1, paths := some paths }
    let requests : List Request := [.observe (eventAtRate 5.0) 0]
    settings.flaw? = none ∧ ∃ l₀ s₀ l archive,
      resume (Archive.watched.both unheard) settings ⟨settings.paths, .empty⟩ 0
          ((⟨settings.paths, .empty⟩, true), ()) = .ok (l₀, s₀) ∧
        serveAll (Archive.watched.both unheard) requests l₀ s₀ = (l, (archive, true), ()) ∧
        l.phase = .fallback ∧
        (∃ failure, paths.load (paths.look archive.files) = .error failure) ∧
        ∃ l', resume unheard settings archive 1 () = .ok (l', ()) ∧ l'.phase = .warmUp := by
  intro paths settings requests
  have hrun : (resume (Archive.watched.both unheard) settings ⟨settings.paths, .empty⟩ 0
      ((⟨settings.paths, .empty⟩, true), ())).toOption.any (fun start =>
      let after := serveAll (Archive.watched.both unheard) requests start.1 start.2
      decide (after.1.phase = .fallback ∧ after.2.1.2 = true ∧
        (paths.load (paths.look after.2.1.1.files)).toOption.isNone = true ∧
        (resume unheard settings after.2.1.1 1 ()).toOption.any (fun again =>
          decide (again.1.phase = .warmUp)) = true)) = true := by decide +kernel
  obtain ⟨⟨l₀, s₀⟩, hstart, hrun⟩ := exists_ok hrun
  obtain ⟨hphase, hkept, hload, hagain⟩ := of_decide_eq_true hrun
  obtain ⟨⟨l', _⟩, hresume, hwarming⟩ := exists_ok hagain
  refine ⟨Option.isNone_iff_eq_none.mp (by decide +kernel), l₀, s₀, _, _, hstart,
    Prod.ext rfl (Prod.ext (Prod.ext rfl hkept) rfl), hphase, ?_, l', hresume,
    of_decide_eq_true hwarming⟩
  generalize paths.load (paths.look _) = loaded at hload ⊢
  cases loaded with
  | error failure => exact ⟨failure, rfl⟩
  | ok found => cases hload

end Learner

end TrafficWatch
