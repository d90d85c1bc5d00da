import TrafficWatch.Proofs.Files.ModelStore
import TrafficWatch.Proofs.Learner.Calibration

/-!
# Files — Keep

What was kept as a whole reads back as it was, whatever the files held before
(`ModelPaths.load_keep`).  Whether it can be kept does not depend on what it is, except for its kind
(`FileTree.keep_fst_congr`).
-/

namespace TrafficWatch

open ModelPaths (finalPlace draftPlace)

variable {paths : ModelPaths} {t t₁ t' : FileTree} {path : String} {bytes : ByteArray}

/-- A path leads to a file of the given bytes. -/
def FileTree.Holds (t : FileTree) (path : String) (bytes : ByteArray) : Prop :=
  t.fault? (.parse path) = none ∧ t.file? (finalPlace path) = some bytes

namespace FileTree.Holds

theorem keeps {except : List Place} (h : t.Holds path bytes) (hk : t.Keeps except t')
    (hne : finalPlace path ∉ except) : t'.Holds path bytes :=
  ⟨hk.fault? h.1, (hk.files _ hne).trans h.2⟩

theorem stored (h : t.Holds path bytes) : t.stored (.parse path) = .bytes bytes := by
  have hget : t.get? (.parse path) = some (.file bytes) := by
    rw [get?, locate, h.1]
    exact file?_eq_some.mp h.2
  rw [FileTree.stored, hget]

end FileTree.Holds

theorem Replaced.holds {done : List FileStep} (h : Replaced path bytes done t t') :
    t'.Holds path bytes :=
  ⟨h.leads, h.file⟩

namespace ModelPaths

/-- The three files are different ones, and none of those written first is the draft of the one
after it: otherwise one write would undo another. -/
structure Separate (paths : ModelPaths) : Prop where
  model_threshold : finalPlace paths.model ≠ finalPlace paths.threshold
  model_marker : finalPlace paths.model ≠ finalPlace paths.marker
  threshold_marker : finalPlace paths.threshold ≠ finalPlace paths.marker
  model_draft : finalPlace paths.model ≠ draftPlace paths.threshold
  threshold_draft : finalPlace paths.threshold ≠ draftPlace paths.marker

theorem Apart.separate (h : paths.Apart) : paths.Separate where
  model_threshold := h.model.2.1
  model_marker := h.model.2.2.2.1
  threshold_marker := h.threshold.2.2.2.1
  model_draft := h.model.2.2.1
  threshold_draft := h.threshold.2.2.2.2

theorem holds_keep_byRate (hpaths : paths.Separate) {x : Float}
    (h : t.keep paths (.byRate x) = (true, t')) :
    t'.Holds paths.threshold (Calibration.byRate x).thresholdBytes ∧
      t'.Holds paths.marker markerText.toUTF8 := by
  rw [FileTree.keep, Calibration.steps_byRate] at h
  obtain ⟨t₁, hthreshold, hmarker⟩ := FileTree.performAll_append_ok h
  have hmarker := replaced_of_all hmarker
  refine ⟨(replaced_of_all hthreshold).holds.keeps hmarker.keeps ?_, hmarker.holds⟩
  simp [hpaths.threshold_draft, hpaths.threshold_marker]

theorem holds_keep_byModel (hpaths : paths.Separate) {m : PcaModel} {x : Float}
    (h : t.keep paths (.byModel m x) = (true, t')) :
    t'.Holds paths.threshold (Calibration.byModel m x).thresholdBytes ∧
      t'.Holds paths.model m.bytes := by
  rw [FileTree.keep, Calibration.steps_byModel] at h
  obtain ⟨t₃, h, hremove⟩ := FileTree.performAll_append_ok h
  obtain ⟨t₂, h, hthreshold⟩ := FileTree.performAll_append_ok h
  obtain ⟨t₁, -, hmodel⟩ := FileTree.performAll_cons_ok h
  obtain ⟨t₄, hremove, hdone⟩ := FileTree.performAll_cons_ok hremove
  cases hdone
  have hremove := (FileTree.remove_spec hremove).1
  have hthreshold := replaced_of_all hthreshold
  refine ⟨hthreshold.holds.keeps hremove (mt List.mem_singleton.mp hpaths.threshold_marker), ?_⟩
  refine ((replaced_of_all hmodel).holds.keeps hthreshold.keeps ?_).keeps hremove
    (mt List.mem_singleton.mp hpaths.model_marker)
  simp [hpaths.model_draft, hpaths.model_threshold]

theorem load_of_model {files : StoredFiles} {m : PcaModel} {x : Float}
    (hthreshold : files.threshold.threshold = .ok (some .model, x))
    (hm : files.model.model = .ok m) :
    paths.load files = .ok (some (.byModel m x)) := by
  simp only [load, Stored.isPresent_of_threshold hthreshold, Stored.isPresent_of_model hm,
    hthreshold, hm, Bool.not_true, Bool.and_false, Bool.false_eq_true, if_false]
  rfl

theorem load_of_marker {files : StoredFiles} {x : Float} (hmarker : files.marker.isPresent = true)
    (hthreshold : files.threshold.threshold = .ok (some .fallback, x)) :
    paths.load files = .ok (some (.byRate x)) := by
  simp only [load, Stored.isPresent_of_threshold hthreshold, hmarker, hthreshold, Bool.not_true,
    Bool.false_and, Bool.false_eq_true, if_false]
  rfl

/-- **What was kept as a whole reads back**, whatever stood in the files before. -/
theorem load_keep (hpaths : paths.Separate) {c : Calibration} (hc : c.IsKeepable)
    (h : t.keep paths c = (true, t')) : paths.load (paths.look t') = .ok (some c) := by
  have hthreshold := Calibration.threshold_of_bytes.mpr ⟨hc.threshold, rfl⟩
  cases c with
  | byRate x =>
      obtain ⟨hheld, hmarker⟩ := holds_keep_byRate hpaths h
      refine load_of_marker ?_ ((congrArg Stored.threshold hheld.stored).trans hthreshold)
      exact congrArg Stored.isPresent hmarker.stored
  | byModel m x =>
      obtain ⟨hheld, hmodel⟩ := holds_keep_byModel hpaths h
      exact load_of_model ((congrArg Stored.threshold hheld.stored).trans hthreshold)
        ((congrArg Stored.model hmodel.stored).trans
          (PcaModel.model_of_bytes.mpr ⟨rfl, hc.model m x rfl⟩))

end ModelPaths

theorem replaceSteps_blank (path : String) (bytes : ByteArray) :
    (replaceSteps path bytes).map .blank = replaceSteps path .empty := by
  simp [replaceSteps, FileStep.makeWay, FileStep.blank]

/-- **One model can be kept where another one can**, and one rate where another one can. -/
theorem FileTree.keep_fst_congr (t : FileTree) (paths : ModelPaths) {c c' : Calibration}
    (hkind : c.isByRate = c'.isByRate) : (t.keep paths c).1 = (t.keep paths c').1 := by
  have hsteps : (c.steps paths).map FileStep.blank = (c'.steps paths).map FileStep.blank := by
    cases c with
    | byRate x =>
        cases c' with
        | byRate x' => simp only [Calibration.steps, List.map_append, replaceSteps_blank]
        | byModel m' x' => cases hkind
    | byModel m x =>
        cases c' with
        | byRate x' => cases hkind
        | byModel m' x' =>
            simp only [Calibration.steps, List.map_cons, List.map_append, replaceSteps_blank]
  have hblank := t.performAll_blank (c.steps paths)
  rw [hsteps, t.performAll_blank (c'.steps paths)] at hblank
  exact (congrArg Prod.fst hblank).symm

end TrafficWatch
