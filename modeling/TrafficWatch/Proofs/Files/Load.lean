import TrafficWatch.Proofs.Files.ModelStore
import TrafficWatch.Proofs.Learner.Active
import TrafficWatch.Proofs.Learner.Training

/-!
# Files — Load

What files of any content say, and what a learner has in force that is started over them.  Files hold
nothing if neither marker nor model is there.  Otherwise the threshold decides: it is for the rate or
for a model, and a threshold that does not name its kind is for the rate exactly when the marker
stands (`StoredFiles.Hold`).  `ModelPaths.load` accepts what files hold and nothing else
(`ModelPaths.load_eq_none`, `ModelPaths.load_eq_hold`), and a learner is never kept from starting by
them (`Learner.starts_with_held`).
-/

namespace TrafficWatch

variable {σ : Type}

/-! ### What files hold -/

/-- A file is text that gives a threshold. -/
def Stored.Gives (s : Stored) (kind? : Option ScoreKind) (x : Float) : Prop :=
  ∃ bytes text, s = .bytes bytes ∧ Text.ofBytes? bytes = some text ∧
    GivesThreshold text.toList kind? x

/-- A file decodes to a model that can be used. -/
def Stored.IsModel (s : Stored) (m : PcaModel) : Prop :=
  ∃ bytes, s = .bytes bytes ∧ PcaModel.read (.ofBytes bytes) = .ok m ∧ m.IsSound

theorem Stored.threshold_eq_ok {s : Stored} {kind? : Option ScoreKind} {x : Float} :
    s.threshold = .ok (kind?, x) ↔ s.Gives kind? x := by
  constructor
  · intro h
    obtain ⟨bytes, rfl⟩ := bytes_of_threshold h
    simp only [threshold] at h
    split at h
    · rename_i text htext
      exact ⟨bytes, text, rfl, htext, readThreshold_iff.mp (mapError_eq_ok.mp h)⟩
    · cases h
  · rintro ⟨bytes, text, rfl, htext, hgives⟩
    simp only [threshold, htext]
    exact mapError_eq_ok.mpr hgives.read

theorem Stored.model_eq_ok {s : Stored} {m : PcaModel} : s.model = .ok m ↔ s.IsModel m := by
  constructor
  · intro h
    obtain ⟨bytes, rfl⟩ := bytes_of_model h
    simp only [model] at h
    split at h
    · rename_i m' hread
      obtain ⟨hfault, rfl⟩ := PcaModel.checked_eq_ok.mp (mapError_eq_ok.mp h)
      exact ⟨bytes, rfl, hread, PcaModel.fault?_eq_none.mp hfault⟩
    · cases h
  · rintro ⟨bytes, rfl, hread, hsound⟩
    simp only [model, hread]
    exact mapError_eq_ok.mpr
      (PcaModel.checked_eq_ok.mpr ⟨PcaModel.fault?_eq_none.mpr hsound, rfl⟩)

namespace StoredFiles

/-- Neither marker nor model is there. -/
def HoldNothing (files : StoredFiles) : Prop :=
  files.marker.isPresent = false ∧ files.model.isPresent = false

/-- What files hold: a threshold for the rate, or a model with its threshold. -/
def Hold (files : StoredFiles) : Calibration → Prop
  | .byRate x =>
    (files.marker.isPresent = true ∨ files.model.isPresent = true) ∧
      (files.threshold.Gives (some .fallback) x ∨
        files.threshold.Gives none x ∧ files.marker.isPresent = true)
  | .byModel m x =>
    files.model.IsModel m ∧
      (files.threshold.Gives (some .model) x ∨
        files.threshold.Gives none x ∧ files.marker.isPresent = false)

/-- For what a threshold is that may not name its kind. -/
def kindOf (files : StoredFiles) (kind? : Option ScoreKind) : ScoreKind :=
  kind?.getD (if files.marker.isPresent then .fallback else .model)

theorem kindOf_eq_fallback {files : StoredFiles} {kind? : Option ScoreKind} :
    files.kindOf kind? = .fallback ↔
      kind? = some .fallback ∨ kind? = none ∧ files.marker.isPresent = true := by
  cases kind? with
  | some kind => simp [kindOf]
  | none => cases h : files.marker.isPresent <;> simp [kindOf, h]

theorem kindOf_eq_model {files : StoredFiles} {kind? : Option ScoreKind} :
    files.kindOf kind? = .model ↔
      kind? = some .model ∨ kind? = none ∧ files.marker.isPresent = false := by
  cases kind? with
  | some kind => simp [kindOf]
  | none => cases h : files.marker.isPresent <;> simp [kindOf, h]

theorem Hold.isPresent {files : StoredFiles} {c : Calibration} (h : files.Hold c) :
    files.marker.isPresent = true ∨ files.model.isPresent = true := by
  cases c with
  | byRate x => exact h.1
  | byModel m x =>
      obtain ⟨bytes, hbytes, -⟩ := h.1
      exact .inr (hbytes ▸ rfl)

end StoredFiles

namespace ModelPaths

variable {paths : ModelPaths} {files : StoredFiles} {c : Calibration}

/-- What is accepted when something is there and the threshold can be read. -/
theorem load_of_gives (hpresent : files.marker.isPresent = true ∨ files.model.isPresent = true)
    {kind? : Option ScoreKind} {x : Float} (h : files.threshold.Gives kind? x) :
    paths.load files =
      match files.kindOf kind? with
      | .fallback => .ok (some (.byRate x))
      | .model =>
        if !files.model.isPresent then .error (.store (.modelMissing paths.model))
        else files.model.model.map fun m => some (.byModel m x) := by
  have hread := Stored.threshold_eq_ok.mpr h
  have hsomething : (!files.marker.isPresent && !files.model.isPresent) = false := by
    rcases hpresent with h | h <;> simp [h]
  have hthreshold : (!files.threshold.isPresent) = false := by
    simp [Stored.isPresent_of_threshold hread]
  unfold load
  simp only [hsomething, hthreshold, Bool.false_eq_true, if_false, hread]
  change (match files.kindOf kind? with | .fallback => _ | .model => _) = _
  cases files.kindOf kind? with
  | fallback => rfl
  | model =>
      simp only
      split
      · rfl
      · cases files.model.model <;> rfl

/-- What was accepted was read from a threshold, unless nothing is there. -/
theorem gives_of_load {held : Option Calibration} (h : paths.load files = .ok held) :
    files.HoldNothing ∧ held = none ∨
      (files.marker.isPresent = true ∨ files.model.isPresent = true) ∧
        ∃ kind? x, files.threshold.Gives kind? x := by
  unfold load at h
  split at h
  · rename_i hnothing
    exact .inl ⟨by simpa [StoredFiles.HoldNothing] using hnothing, (Except.ok.inj h).symm⟩
  split at h
  · cases h
  rename_i hsomething _
  obtain ⟨⟨kind?, x⟩, hthreshold, -⟩ := bind_eq_ok h
  refine .inr ⟨?_, kind?, x, Stored.threshold_eq_ok.mp hthreshold⟩
  cases hmarker : files.marker.isPresent with
  | true => exact .inl rfl
  | false => exact .inr (by simpa [hmarker] using hsomething)

/-- What is accepted is held. -/
theorem hold_of_load {held : Option Calibration} (h : paths.load files = .ok held) :
    files.HoldNothing ∧ held = none ∨ ∃ c, held = some c ∧ files.Hold c := by
  refine (gives_of_load h).imp_right fun ⟨hpresent, kind?, x, hgives⟩ => ?_
  rw [load_of_gives hpresent hgives] at h
  cases hkind : files.kindOf kind? with
  | fallback =>
      rw [hkind] at h
      refine ⟨.byRate x, (Except.ok.inj h).symm, hpresent, ?_⟩
      rcases StoredFiles.kindOf_eq_fallback.mp hkind with rfl | ⟨rfl, hmarker⟩
      · exact .inl hgives
      · exact .inr ⟨hgives, hmarker⟩
  | model =>
      simp only [hkind] at h
      split at h
      · cases h
      obtain ⟨m, hm, hheld⟩ := map_eq_ok h
      refine ⟨.byModel m x, hheld.symm, Stored.model_eq_ok.mp hm, ?_⟩
      rcases StoredFiles.kindOf_eq_model.mp hkind with rfl | ⟨rfl, hmarker⟩
      · exact .inl hgives
      · exact .inr ⟨hgives, hmarker⟩

/-- What is held is accepted. -/
theorem load_of_hold (h : files.Hold c) : paths.load files = .ok (some c) := by
  have hpresent := h.isPresent
  cases c with
  | byRate x =>
      obtain ⟨kind?, hgives, hkind⟩ :
          ∃ kind?, files.threshold.Gives kind? x ∧ files.kindOf kind? = .fallback := by
        rcases h.2 with hgives | ⟨hgives, hmarker⟩
        · exact ⟨_, hgives, rfl⟩
        · exact ⟨_, hgives, StoredFiles.kindOf_eq_fallback.mpr (.inr ⟨rfl, hmarker⟩)⟩
      rw [load_of_gives hpresent hgives, hkind]
  | byModel m x =>
      obtain ⟨kind?, hgives, hkind⟩ :
          ∃ kind?, files.threshold.Gives kind? x ∧ files.kindOf kind? = .model := by
        rcases h.2 with hgives | ⟨hgives, hmarker⟩
        · exact ⟨_, hgives, rfl⟩
        · exact ⟨_, hgives, StoredFiles.kindOf_eq_model.mpr (.inr ⟨rfl, hmarker⟩)⟩
      have hmodel := Stored.model_eq_ok.mpr h.1
      rw [load_of_gives hpresent hgives, hkind, hmodel, Stored.isPresent_of_model hmodel]
      rfl

/-- Files are found to hold nothing exactly if they do. -/
theorem load_eq_none : paths.load files = .ok none ↔ files.HoldNothing := by
  constructor
  · intro h
    rcases hold_of_load h with ⟨hnothing, -⟩ | ⟨c, hc, -⟩
    · exact hnothing
    · cases hc
  · rintro ⟨hmarker, hmodel⟩
    rw [load, hmarker, hmodel]
    rfl

/-- **What is accepted is what files hold.** -/
theorem load_eq_hold : paths.load files = .ok (some c) ↔ files.Hold c := by
  refine ⟨fun h => ?_, load_of_hold⟩
  rcases hold_of_load h with ⟨-, hnone⟩ | ⟨c', hc, hhold⟩
  · cases hnone
  · cases hc
    exact hhold

/-- **Files are refused** if they hold neither anything nor nothing. -/
theorem load_eq_error : (∃ fault, paths.load files = .error fault) ↔
    ¬ files.HoldNothing ∧ ∀ c, ¬ files.Hold c := by
  constructor
  · rintro ⟨fault, hfault⟩
    refine ⟨fun h => ?_, fun c h => ?_⟩
    · rw [load_eq_none.mpr h] at hfault
      cases hfault
    · rw [load_eq_hold.mpr h] at hfault
      cases hfault
  · rintro ⟨hnothing, hhold⟩
    cases hload : paths.load files with
    | error fault => exact ⟨fault, rfl⟩
    | ok held =>
        cases held with
        | none => exact absurd (load_eq_none.mp hload) hnothing
        | some c => exact absurd (load_eq_hold.mp hload) (hhold c)

end ModelPaths

/-! ### Starting over files -/

namespace Learner

/-- A learner starts whatever the archive holds, and has in force what it holds, if anything. -/
theorem exists_resume_held {hear : Listener σ} (hquiet : hear.IsQuiet) {settings : Deployment}
    {l₀ : Learner} (hstart : start settings = .ok l₀) (archive : Archive) (now : Instant) (s : σ) :
    ∃ l s', resume hear settings archive now s = .ok (l, s') ∧
      (∀ c, archive.held = .ok (some c) → ∃ active, l.cell.current = some active ∧
        active.calibration = c ∧ active.version = 1 ∧ active.samples = 0) ∧
      ((∀ c, archive.held ≠ .ok (some c)) → l.cell = .empty) := by
  obtain ⟨l, s', hresume⟩ := exists_resume hstart hear archive now s
  refine ⟨l, s', hresume, ?_⟩
  obtain ⟨-, -, hresumes⟩ := resume_spec hquiet hresume
  cases hresumes with
  | empty hheld hcell _ => exact ⟨fun c hc => absurd hc (hheld c), fun _ => hcell⟩
  | restored c told hheld hcell _ _ =>
      refine ⟨fun c' hc' => ?_, fun hnone => absurd hheld (hnone c)⟩
      obtain rfl : c = c' := Option.some.inj (Except.ok.inj (hheld.symm.trans hc'))
      refine ⟨_, congrArg ActiveCell.current hcell, ?_, rfl, ?_⟩
      · exact Active.calibration_ofCalibration l.settings.scorerPoolSize 0 now c
      · exact Active.samples_ofCalibration l.settings.scorerPoolSize 0 now c

/-- **What files of any content come to.** They are found to hold nothing, a threshold for the rate or
a model exactly if they do, and are refused in every other case.  A learner starts over them if the
settings can be run.  It has in force what they hold, with the first version and no samples; if that
is nothing it warms up. -/
theorem starts_with_held (paths : ModelPaths) (files : StoredFiles) :
    ((paths.load files = .ok none ↔ files.HoldNothing) ∧
      (∀ c, paths.load files = .ok (some c) ↔ files.Hold c) ∧
      ((∃ fault, paths.load files = .error fault) ↔
        ¬ files.HoldNothing ∧ ∀ c, ¬ files.Hold c)) ∧
    ∀ {σ : Type} (hear : Listener σ) (settings : Deployment) (tree : FileTree) (now : Instant) (s : σ),
      hear.IsQuiet → paths.look tree = files →
        match start settings with
        | .error fault => resume hear settings ⟨some paths, tree⟩ now s = .error fault
        | .ok _ => ∃ l s', resume hear settings ⟨some paths, tree⟩ now s = .ok (l, s') ∧
            (∀ c, files.Hold c → ∃ active, l.cell.current = some active ∧ active.calibration = c ∧
              l.status.version = 1 ∧ l.status.trainedSamples = 0) ∧
            ((∀ c, ¬ files.Hold c) → l.status.phase = .warmUp ∧ l.status.version = 0) := by
  refine ⟨⟨ModelPaths.load_eq_none, fun c => ModelPaths.load_eq_hold, ModelPaths.load_eq_error⟩, ?_⟩
  intro σ hear settings tree now s hquiet hlook
  have hheld (c : Calibration) :
      Archive.held ⟨some paths, tree⟩ = .ok (some c) ↔ files.Hold c := by
    rw [← hlook]
    exact ModelPaths.load_eq_hold
  cases hstart : start settings with
  | error fault =>
      change resume hear settings _ now s = _
      rw [resume, hstart]
      rfl
  | ok l₀ =>
      obtain ⟨l, s', hresume, hholds, hempty⟩ :=
        exists_resume_held hquiet hstart ⟨some paths, tree⟩ now s
      refine ⟨l, s', hresume, fun c hc => ?_, fun hc => ?_⟩
      · obtain ⟨active, hactive, hcalibration, hversion, hsamples⟩ := hholds c ((hheld c).mpr hc)
        refine ⟨active, hactive, hcalibration, ?_, ?_⟩
        · simp [status, hactive, hversion]
        · simp [status, hactive, hsamples]
      · have hcell := hempty fun c h => hc c ((hheld c).mp h)
        simp [status, phase, hcell, ActiveCell.empty]

/-- A threshold that names its kind, between blanks of several sorts, is for the rate although no marker
stands and a file stands in the place of the model; that file is not even read. -/
theorem starts_with_held_blanks :
    let paths : ModelPaths := ⟨"m", "t", "f"⟩
    let tree : FileTree := ⟨[(["m"], .file "no model".toUTF8),
      (["t"], .file "\u3000fallback \t2.5\n".toUTF8)]⟩
    paths.load (paths.look tree) = .ok (some (.byRate 2.5)) ∧
      ∃ l, resume unheard .plain ⟨some paths, tree⟩ 0 () = .ok (l, ()) ∧ l.status.version = 1 := by
  intro paths tree
  obtain ⟨⟨-, hload, -⟩, hstarts⟩ := starts_with_held paths (paths.look tree)
  have htext : (paths.look tree).threshold = .bytes "\u3000fallback \t2.5\n".toUTF8 := by cbv
  have hmodel : (paths.look tree).model.isPresent = true := by decide +kernel
  have hgives : GivesThreshold "\u3000fallback \t2.5\n".toList (some .fallback) 2.5 := by
    have hlead : Text.Blank ['\u3000'] := by decide
    have hgap : Text.Blank [' ', '\t'] := by decide
    have htrail : Text.Blank ['\n'] := by decide
    have hnumber : IsNumber ['2', '.', '5'] 2.5 := ⟨by decide +kernel, by decide⟩
    exact .named .fallback hlead hgap (by decide) htrail hnumber
  have hhold : (paths.look tree).Hold (.byRate 2.5) :=
    ⟨.inr hmodel, .inl ⟨_, _, htext, Text.ofBytes?_toUTF8 _, hgives⟩⟩
  refine ⟨(hload _).mpr hhold, ?_⟩
  have hflaw : Deployment.plain.flaw? = none := Option.isNone_iff_eq_none.mp (by decide +kernel)
  have hstart := hstarts unheard .plain tree 0 () isQuiet_unheard rfl
  simp only [start, hflaw] at hstart
  obtain ⟨l, ⟨⟩, hresume, hheld, -⟩ := hstart
  obtain ⟨active, -, -, hversion, -⟩ := hheld _ hhold
  exact ⟨l, hresume, hversion⟩

end Learner

end TrafficWatch
