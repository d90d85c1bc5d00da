import TrafficWatch.Proofs.Files.Keep
import TrafficWatch.Proofs.Learner.Reachable

/-!
# Learner — Sound

Nothing comes into force that cannot be relied on, whatever the files hold and whatever the features
of the events are (`Learner.inForce_isSound`).  What is read from files was checked
(`ModelPaths.isSound_of_load`), and so was what was found in samples (`Deployment.calibrate_isSound`).
-/

namespace TrafficWatch

variable {σ : Type}

/-! ### What files hold -/

theorem readNumber_isFinite {text number : List Char} {x : Float}
    (h : readNumber text number = .ok x) : x.isFinite = true := by
  unfold readNumber at h
  split at h
  · cases h
  · obtain ⟨hfinite, rfl⟩ := ite_eq_ok.mp h
    exact hfinite

theorem readThreshold_isFinite {text : List Char} {r : Option ScoreKind × Float}
    (h : readThreshold text = .ok r) : r.2.isFinite = true := by
  unfold readThreshold at h
  simp only at h
  split at h
  · obtain ⟨x, hx, rfl⟩ := map_eq_ok h
    exact readNumber_isFinite hx
  · split at h
    · cases h
    · obtain ⟨x, hx, rfl⟩ := map_eq_ok h
      exact readNumber_isFinite hx

theorem Stored.isFinite_of_threshold {s : Stored} {r : Option ScoreKind × Float}
    (h : s.threshold = .ok r) : r.2.isFinite = true := by
  obtain ⟨bytes, rfl⟩ := bytes_of_threshold h
  unfold threshold at h
  simp only at h
  split at h
  · exact readThreshold_isFinite (mapError_eq_ok.mp h)
  · cases h

theorem Stored.isSound_of_model {s : Stored} {m : PcaModel} (h : s.model = .ok m) : m.IsSound := by
  obtain ⟨bytes, rfl⟩ := bytes_of_model h
  unfold model at h
  simp only at h
  split at h
  · obtain ⟨hfault, rfl⟩ := PcaModel.checked_eq_ok.mp (mapError_eq_ok.mp h)
    exact PcaModel.fault?_eq_none.mp hfault
  · cases h

/-- **Whatever files hold**, what is read from them is sound. -/
theorem ModelPaths.isSound_of_load {paths : ModelPaths} {files : StoredFiles} {c : Calibration}
    (h : paths.load files = .ok (some c)) : c.IsSound := by
  obtain ⟨kind?, x, hthreshold, h⟩ := load_eq_some h
  have hfinite := Stored.isFinite_of_threshold hthreshold
  generalize kind?.getD _ = kind at h
  cases kind with
  | fallback =>
      subst h
      exact ⟨hfinite, nofun⟩
  | model =>
      obtain ⟨m, hm, rfl⟩ := h
      refine ⟨hfinite, fun m' x' heq => ?_⟩
      cases heq
      exact Stored.isSound_of_model hm

theorem Calibration.Source.isSound {settings : Deployment} {c : Calibration}
    (h : c.Source settings) : c.IsSound := by
  cases h with
  | samples samples hfound => exact Deployment.calibrate_isSound hfound
  | files archive hheld =>
      unfold Archive.held at hheld
      split at hheld
      · cases hheld
      · exact ModelPaths.isSound_of_load hheld

/-! ### What is in force -/

namespace Learner

variable {hear : Listener σ} {settings : Deployment} {l : Learner}

theorem Reachable.isSound (h : Reachable hear settings l) (hquiet : hear.IsQuiet) {active : Active}
    (hactive : l.cell.current = some active) : active.calibration.IsSound :=
  ((h.isAccounted hquiet).source active hactive).isSound

/-- **Only what is sound comes into force.** Take any learner that can come about, over any files and
whatever the features of the events are.  The threshold in force is finite, a model in force passes
its check, and a vector is scored without cutting a list or dividing by zero.  So are the samples
when a model is fitted, in whatever order products are added up. -/
theorem inForce_isSound (hquiet : hear.IsQuiet) (h : Reachable hear settings l) :
    (∀ active, l.cell.current = some active →
      active.threshold.isFinite = true ∧
        ∀ m, active.model? = some m → m.fault? = none ∧ m.IsSound ∧
          ∀ v : Features, m.score? v.toList = some (active.score v)) ∧
    ∀ add samples m, PcaModel.fit add samples l.settings.rank = .ok m →
      ∀ v : Features, m.score? v.toList = some (m.score v.toList) := by
  refine ⟨fun active hactive => ?_, fun add samples m hfit v => ?_⟩
  · have hsound := h.isSound hquiet hactive
    refine ⟨active.threshold_calibration ▸ hsound.threshold, fun m hm => ?_⟩
    have hfound := Active.calibration_of_model? hm
    have hmodel := hsound.model m active.threshold hfound
    refine ⟨PcaModel.fault?_eq_none.mpr hmodel, hmodel, fun v => ?_⟩
    rw [hmodel.score?_eq, active.score_eq, hfound]
  · exact (PcaModel.fault?_eq_none.mp (PcaModel.fit_spec hfit).1).score?_eq v

/-- A learner that goes on with a model from files. -/
theorem inForce_isSound_restored :
    let m : PcaModel :=
      ⟨.replicate 6 0.0, .replicate 6 1.0, [[1.0, 0.0, 0.0, 0.0, 0.0, 0.0]], [1.0], 10⟩
    let settings : Deployment := { Deployment.plain with paths := some (.inDirectory "state") }
    let files : Archive :=
      ⟨settings.paths, (FileTree.empty.keep (.inDirectory "state") (.byModel m 2.0)).2⟩
    ∃ l s active, resume unheard settings files 0 () = .ok (l, s) ∧ l.cell.current = some active ∧
      active.model? = some m ∧ active.threshold.isFinite = true ∧ m.IsSound ∧
        ∀ v : Features, m.score? v.toList = some (active.score v) := by
  intro m settings files
  have hkeepable : (Calibration.byModel m 2.0).IsKeepable := by
    refine ⟨by decide +kernel, fun m' x heq => ?_⟩
    cases heq
    exact ⟨by decide +kernel, Option.isNone_iff_eq_none.mp (by decide +kernel)⟩
  have hkeep : FileTree.empty.keep (.inDirectory "state") (.byModel m 2.0) = (true, files.files) :=
    Prod.ext (by decide +kernel) rfl
  have hheld : files.held = .ok (some (.byModel m 2.0)) :=
    ModelPaths.load_keep (ModelPaths.apart_inDirectory "state").separate hkeepable hkeep
  have hflaw : settings.flaw? = none := Option.isNone_iff_eq_none.mp (by decide +kernel)
  have hstart : start settings = .ok ⟨settings, .empty, .empty settings.baselineCap, false⟩ := by
    rw [start, hflaw]
    rfl
  obtain ⟨l, s, hresume⟩ := exists_resume hstart unheard files 0 ()
  obtain ⟨hsound, -⟩ := inForce_isSound isQuiet_unheard (.start hresume)
  cases (resume_spec isQuiet_unheard hresume).2.2 with
  | empty hnothing => exact absurd hheld (hnothing _)
  | restored c told hfound hcell =>
      cases hheld.symm.trans hfound
      have hactive : l.cell.current = some _ := congrArg ActiveCell.current hcell
      obtain ⟨hfinite, hmodel⟩ := hsound _ hactive
      obtain ⟨-, hm, hscore⟩ := hmodel m rfl
      exact ⟨l, s, _, hresume, hactive, rfl, hfinite, hm, hscore⟩

end Learner

end TrafficWatch
