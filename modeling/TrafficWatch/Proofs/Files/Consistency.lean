import TrafficWatch.Proofs.Files.Attempt

/-!
# Files — Consistency

What attempts to keep something leave in the files, wherever they stop.  `ModelPaths.Consistent`
ties the files to the last attempt that put a threshold in its place: a file that stands there is
the threshold of that attempt, and if it was one for a model, that model stands beside it.  Every
attempt preserves it (`Consistent.attempt`), because a model is never touched while a threshold
stands.  `ModelPaths.IsMarked` says that a model or a marker stands, so that the files do not look
as if nothing had ever been kept; a complete attempt brings this about
(`Attempt.IsComplete.isMarked`) and no attempt undoes it (`IsMarked.attempt`).
-/

namespace TrafficWatch

open FileStep (Cut isRenameTo)
open ModelPaths (finalPlace draftPlace)

/-! ### What the files say -/

/-- The kind of score. -/
def Calibration.kind : Calibration → ScoreKind
  | byRate _ => .fallback
  | byModel _ _ => .model

/-- The bytes by which a threshold is kept. -/
def Calibration.thresholdBytes (c : Calibration) : ByteArray :=
  (thresholdText c.kind c.threshold).toUTF8

/-- The bytes by which a model is kept. -/
def PcaModel.bytes (m : PcaModel) : ByteArray :=
  (String.ofList m.toJson.pretty).toUTF8

theorem Calibration.steps_byRate (paths : ModelPaths) (x : Float) :
    (byRate x).steps paths =
      replaceSteps paths.threshold (byRate x).thresholdBytes ++
        replaceSteps paths.marker markerText.toUTF8 :=
  rfl

theorem Calibration.steps_byModel (paths : ModelPaths) (m : PcaModel) (x : Float) :
    (byModel m x).steps paths =
      .remove (.parse paths.threshold) :: replaceSteps paths.model m.bytes ++
        replaceSteps paths.threshold (byModel m x).thresholdBytes ++
          [.remove (.parse paths.marker)] :=
  rfl

namespace ModelPaths

variable {paths : ModelPaths} {t t₁ t' : FileTree} {last : Option Calibration}
  {except : List Place} {done : List FileStep}

/-- A file in the place of the threshold is what was kept last, together with the model if there is
one. -/
def Consistent (paths : ModelPaths) (t : FileTree) (last : Option Calibration) : Prop :=
  ∀ bytes, t.file? (finalPlace paths.threshold) = some bytes →
    t.fault? (.parse paths.threshold) = none ∧
      ∃ c, last = some c ∧ bytes = c.thresholdBytes ∧
        ∀ m x, c = .byModel m x → t.file? (finalPlace paths.model) = some m.bytes

theorem consistent_of_none (h : t.file? (finalPlace paths.threshold) = none)
    (last : Option Calibration) : paths.Consistent t last := fun bytes hbytes => by
  rw [h] at hbytes
  cases hbytes

theorem Consistent.keeps (h : paths.Consistent t last) (hk : t.Keeps except t')
    (hthreshold : finalPlace paths.threshold ∉ except) (hmodel : finalPlace paths.model ∉ except) :
    paths.Consistent t' last := fun bytes hbytes => by
  rw [hk.files _ hthreshold] at hbytes
  obtain ⟨hleads, c, hlast, hc, hm⟩ := h bytes hbytes
  refine ⟨hk.fault? hleads, c, hlast, hc, fun m x hcm => ?_⟩
  rw [hk.files _ hmodel, hm m x hcm]

end ModelPaths

section Attempting

variable {paths : ModelPaths} {t t₁ t' : FileTree} {last : Option Calibration}
    {done : List FileStep}

/-- The threshold was replaced, and the model stands beside it. -/
theorem Replaced.consistent {c : Calibration}
    (h : Replaced paths.threshold c.thresholdBytes done t t')
    (hm : ∀ m x, c = .byModel m x → t'.file? (finalPlace paths.model) = some m.bytes) :
    paths.Consistent t' (some c) := fun bytes hbytes => by
  rw [h.file] at hbytes
  exact ⟨h.leads, c, rfl, (Option.some.inj hbytes).symm, hm⟩

/-- An attempt to keep a threshold for the rate. -/
theorem ModelPaths.Consistent.attempt_byRate (hapart : paths.Apart) {x : Float}
    (hc : paths.Consistent t last) (hcut : Cut done ((Calibration.byRate x).steps paths))
    (hrun : t.performAll done = (true, t')) :
    paths.Consistent t'
      (if done.any (isRenameTo (.parse paths.threshold)) then some (.byRate x) else last) := by
  rw [Calibration.steps_byRate] at hcut
  rcases hcut.append with hfirst | ⟨later, rfl, hlater⟩
  · rcases replaced_or_not hfirst hrun with h | h
    · rw [h.commits, if_pos (decide_eq_true rfl)]
      exact h.consistent fun _ _ h => by cases h
    · rw [h.commits, if_neg Bool.false_ne_true]
      exact hc.keeps h.keeps (by simp [hapart.threshold]) (by simp [hapart.model])
  · obtain ⟨t₁, hrun₁, hrun₂⟩ := FileTree.performAll_append_ok hrun
    rw [List.any_append, any_isRenameTo_replaceSteps, Bool.true_or, if_pos rfl]
    have hnew : paths.Consistent t₁ (some (.byRate x)) :=
      (replaced_of_all hrun₁).consistent fun _ _ h => by cases h
    exact hnew.keeps (keeps_of_cut hlater hrun₂) (by simp [hapart.threshold])
      (by simp [hapart.model])

/-- The threshold is gone before the model is touched. -/
theorem remove_then_replace (hapart : paths.Apart) {m : PcaModel} (hc : paths.Consistent t last)
    (hcut : Cut done
      (.remove (.parse paths.threshold) :: replaceSteps paths.model m.bytes))
    (hrun : t.performAll done = (true, t')) :
    paths.Consistent t' last ∧ done.any (isRenameTo (.parse paths.threshold)) = false ∧
      (done = .remove (.parse paths.threshold) :: replaceSteps paths.model m.bytes →
        t'.file? (finalPlace paths.threshold) = none ∧
          t'.file? (finalPlace paths.model) = some m.bytes) := by
  cases hcut with
  | stop =>
      cases hrun
      exact ⟨hc, rfl, fun h => by cases h⟩
  | step _ hcut =>
      obtain ⟨t₁, hremove, hrun⟩ := FileTree.performAll_cons_ok hrun
      have hgone : t₁.file? (finalPlace paths.threshold) = none := by
        rcases (FileTree.remove_spec hremove).2 with hgone | ⟨hleads, rfl⟩
        · exact hgone
        · -- where a path leads nowhere no threshold stood before
          by_contra hsome
          obtain ⟨bytes, hbytes⟩ := Option.ne_none_iff_exists'.mp hsome
          exact hleads (hc bytes hbytes).1
      have hkeeps := keeps_of_cut hcut hrun
      have hgone' : t'.file? (finalPlace paths.threshold) = none :=
        (hkeeps.files _ (by simp [hapart.threshold])).trans hgone
      have hne : Path.parse paths.model ≠ .parse paths.threshold := fun h =>
        hapart.threshold.2.1 (congrArg Path.place h.symm)
      refine ⟨ModelPaths.consistent_of_none hgone' last, ?_, fun hall => ⟨hgone', ?_⟩⟩
      · rw [List.any_cons]
        rcases replaced_or_not hcut hrun with h | h
        · rw [h.commits, decide_eq_false hne]
          rfl
        · rw [h.commits]
          rfl
      · rw [(List.cons.inj hall).2] at hrun
        exact (replaced_of_all hrun).file

/-- The threshold for a model is put beside the model. -/
theorem Replaced.consistent_byModel (hapart : paths.Apart) {m : PcaModel} {x : Float}
    (h : Replaced paths.threshold (Calibration.byModel m x).thresholdBytes done t t')
    (hm : t.file? (finalPlace paths.model) = some m.bytes) :
    paths.Consistent t' (some (.byModel m x)) := by
  refine h.consistent fun m' x' heq => ?_
  cases heq
  exact (h.keeps.files _ (by simp [hapart.model])).trans hm

/-- An attempt to keep a model. -/
theorem ModelPaths.Consistent.attempt_byModel (hapart : paths.Apart) {m : PcaModel} {x : Float}
    (hc : paths.Consistent t last) (hcut : Cut done ((Calibration.byModel m x).steps paths))
    (hrun : t.performAll done = (true, t')) :
    paths.Consistent t'
      (if done.any (isRenameTo (.parse paths.threshold)) then some (.byModel m x) else last) := by
  rw [Calibration.steps_byModel] at hcut
  rcases hcut.append with hcut | ⟨later, rfl, hlater⟩
  · rcases hcut.append with hcut | ⟨later, rfl, hlater⟩
    · -- it stopped before the threshold
      obtain ⟨hc', hany, -⟩ := remove_then_replace hapart hc hcut hrun
      rw [hany, if_neg Bool.false_ne_true]
      exact hc'
    · -- it stopped while the threshold was replaced, next to the whole model
      obtain ⟨t₁, hrun₁, hrun₂⟩ := FileTree.performAll_append_ok hrun
      obtain ⟨-, hany, hall⟩ := remove_then_replace hapart hc (.refl _) hrun₁
      obtain ⟨hgone, hm⟩ := hall rfl
      rw [List.any_append, hany, Bool.false_or]
      rcases replaced_or_not hlater hrun₂ with h | h
      · rw [h.commits, if_pos (decide_eq_true rfl)]
        exact h.consistent_byModel hapart hm
      · exact consistent_of_none ((h.keeps.files _ (by simp [hapart.threshold])).trans hgone) _
  · -- only the marker was left to remove
    obtain ⟨t₂, hrun, hrun₃⟩ := FileTree.performAll_append_ok hrun
    obtain ⟨t₁, hrun₁, hrun₂⟩ := FileTree.performAll_append_ok hrun
    obtain ⟨-, -, hall⟩ := remove_then_replace hapart hc (.refl _) hrun₁
    have hnew := (replaced_of_all hrun₂).consistent_byModel hapart (hall rfl).2
    rw [List.any_append, List.any_append, any_isRenameTo_replaceSteps, Bool.or_true, Bool.true_or,
      if_pos rfl]
    exact hnew.keeps (keeps_of_cut_remove hlater hrun₃)
      (mt List.mem_singleton.mp hapart.threshold.2.2.2.1)
      (mt List.mem_singleton.mp hapart.model.2.2.2.1)

/-- **Every attempt leaves the files consistent**, with what it was to keep if the threshold was put
in its place, and with what they held before otherwise. -/
theorem ModelPaths.Consistent.attempt (hapart : paths.Apart) (hc : paths.Consistent t last)
    (a : Attempt paths) (hrun : t.performAll a.done = (true, t')) :
    paths.Consistent t' (if a.commits then some a.calibration else last) := by
  obtain ⟨c, done, hcut⟩ := a
  cases c with
  | byRate x => exact hc.attempt_byRate hapart hcut hrun
  | byModel m x => exact hc.attempt_byModel hapart hcut hrun

/-! ### What is never forgotten -/

/-- Something stands at a path. -/
def FileTree.Stands (t : FileTree) (path : String) : Prop :=
  t.fault? (.parse path) = none ∧ ∃ e, t.entry? (finalPlace path) = some e

theorem FileTree.Stands.keeps {path : String} {except : List Place} (h : t.Stands path)
    (hk : t.Keeps except t') (hne : finalPlace path ∉ except) : t'.Stands path :=
  ⟨hk.fault? h.1, h.2.elim fun _ he => hk.exists_entry hne he⟩

theorem Replaced.stands {path : String} {bytes : ByteArray} (h : Replaced path bytes done t t') :
    t'.Stands path :=
  ⟨h.leads, _, FileTree.file?_eq_some.mp h.file⟩

/-- There is a sign of what was kept: a model, or the marker that stands for none. -/
def ModelPaths.IsMarked (paths : ModelPaths) (t : FileTree) : Prop :=
  t.Stands paths.model ∨ t.Stands paths.marker

theorem ModelPaths.IsMarked.keeps {except : List Place} (h : paths.IsMarked t)
    (hk : t.Keeps except t') (hmodel : finalPlace paths.model ∉ except)
    (hmarker : finalPlace paths.marker ∉ except) : paths.IsMarked t' :=
  h.imp (·.keeps hk hmodel) (·.keeps hk hmarker)

/-- The sign stays, whichever of the files is replaced, and however far that comes. -/
theorem ModelPaths.IsMarked.of_cut (hapart : paths.Apart) (h : paths.IsMarked t) {other : String}
    {bytes : ByteArray} (hother : other ∈ [paths.threshold, paths.model, paths.marker])
    (hcut : Cut done (replaceSteps other bytes)) (hrun : t.performAll done = (true, t')) :
    paths.IsMarked t' := by
  simp only [List.mem_cons, List.not_mem_nil, or_false] at hother
  rcases replaced_or_not hcut hrun with hr | hr
  · rcases hother with rfl | rfl | rfl
    · exact h.keeps hr.keeps (by simp [hapart.model]) (by simp [hapart.marker])
    · exact .inl hr.stands
    · exact .inr hr.stands
  · refine h.keeps hr.keeps ?_ ?_ <;> rcases hother with rfl | rfl | rfl <;>
      simp [hapart.model, hapart.marker]

/-- Once a model is in its place, it stays there to the end of the attempt. -/
theorem stands_model (hapart : paths.Apart)
    {m : PcaModel} {bytes : ByteArray} {later : List FileStep}
    (hrun₁ : t.performAll (.remove (.parse paths.threshold) :: replaceSteps paths.model m.bytes) =
      (true, t₁))
    (hlater : Cut later (replaceSteps paths.threshold bytes ++ [.remove (.parse paths.marker)]))
    (hrun₂ : t₁.performAll later = (true, t')) : t'.Stands paths.model := by
  obtain ⟨t₀, -, hrun₁⟩ := FileTree.performAll_cons_ok hrun₁
  have hstands : t₁.Stands paths.model := (replaced_of_all hrun₁).stands
  rcases hlater.append with hcut | ⟨last, rfl, hlast⟩
  · exact hstands.keeps (keeps_of_cut hcut hrun₂) (by simp [hapart.model])
  · obtain ⟨t₂, hrun₂, hrun₃⟩ := FileTree.performAll_append_ok hrun₂
    have hstands := hstands.keeps (keeps_of_cut (.refl _) hrun₂) (by simp [hapart.model])
    exact hstands.keeps (keeps_of_cut_remove hlast hrun₃)
      (mt List.mem_singleton.mp hapart.model.2.2.2.1)

/-- **No attempt takes the sign away.** -/
theorem ModelPaths.IsMarked.attempt (hapart : paths.Apart) (h : paths.IsMarked t)
    (a : Attempt paths) (hrun : t.performAll a.done = (true, t')) : paths.IsMarked t' := by
  obtain ⟨c, done, hcut⟩ := a
  cases c with
  | byRate x =>
      rw [Calibration.steps_byRate] at hcut
      rcases hcut.append with hcut | ⟨later, rfl, hlater⟩
      · exact h.of_cut hapart (by simp) hcut hrun
      · obtain ⟨t₁, hrun₁, hrun₂⟩ := FileTree.performAll_append_ok hrun
        exact (h.of_cut hapart (by simp) (.refl _) hrun₁).of_cut hapart (by simp) hlater hrun₂
  | byModel m x =>
      rw [Calibration.steps_byModel, List.append_assoc] at hcut
      rcases hcut.append with hcut | ⟨later, rfl, hlater⟩
      · cases hcut with
        | stop =>
            cases hrun
            exact h
        | step _ hcut =>
            obtain ⟨t₁, hremove, hrun⟩ := FileTree.performAll_cons_ok hrun
            have hkeeps := (FileTree.remove_spec hremove).1
            exact (h.keeps hkeeps (mt List.mem_singleton.mp hapart.model.2.1)
              (mt List.mem_singleton.mp hapart.marker.2.1)).of_cut hapart (by simp) hcut hrun
      · obtain ⟨t₁, hrun₁, hrun₂⟩ := FileTree.performAll_append_ok hrun
        exact .inl (stands_model hapart hrun₁ hlater hrun₂)

/-- **A complete attempt leaves a sign.** -/
theorem Attempt.IsComplete.isMarked (hapart : paths.Apart) {a : Attempt paths} (ha : a.IsComplete)
    (hrun : t.performAll a.done = (true, t')) : paths.IsMarked t' := by
  rw [show a.done = a.calibration.steps paths from ha] at hrun
  revert hrun
  generalize a.calibration = c
  intro hrun
  cases c with
  | byRate x =>
      rw [Calibration.steps_byRate] at hrun
      obtain ⟨t₁, -, hrun⟩ := FileTree.performAll_append_ok hrun
      exact .inr (replaced_of_all hrun).stands
  | byModel m x =>
      rw [Calibration.steps_byModel, List.append_assoc] at hrun
      obtain ⟨t₁, hrun₁, hrun₂⟩ := FileTree.performAll_append_ok hrun
      exact .inl (stands_model hapart hrun₁ (.refl _) hrun₂)

end Attempting

end TrafficWatch
