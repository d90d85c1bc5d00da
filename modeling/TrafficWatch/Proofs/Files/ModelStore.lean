import TrafficWatch.Proofs.Files.Consistency
import TrafficWatch.Proofs.Files.Threshold
import TrafficWatch.Proofs.Pca.Text

/-!
# Files — Model store

What the files say after any number of attempts to keep something, each of which may have stopped
anywhere.  If they say anything, it is what the last attempt was to keep that put a threshold in its
place (`ModelPaths.load_eq_committed`), and after the first complete attempt they never again look
as if nothing had been kept.
-/

namespace TrafficWatch

open ModelPaths (finalPlace)

variable {paths : ModelPaths} {t t₀ : FileTree} {last : Option Calibration}

theorem FileTree.stored_eq_bytes {path : String} {bytes : ByteArray}
    (h : t.stored (.parse path) = .bytes bytes) : t.file? (finalPlace path) = some bytes := by
  unfold stored get? at h
  split at h
  · cases h
  · cases h
  · rename_i hentry
    cases h
    split at hentry
    · rename_i here hlocate
      obtain ⟨-, rfl⟩ := locate_ok hlocate
      exact file?_eq_some.mpr hentry
    · cases hentry

theorem FileTree.Stands.isPresent {path : String} (h : t.Stands path) :
    (t.stored (.parse path)).isPresent = true := by
  obtain ⟨e, he⟩ := h.2
  have hget : t.get? (.parse path) = some e := by
    rw [get?, locate, h.1]
    exact he
  rw [stored, hget]
  cases e <;> rfl

theorem Stored.bytes_of_threshold {s : Stored} {r : Option ScoreKind × Float}
    (h : s.threshold = .ok r) : ∃ bytes, s = .bytes bytes := by
  cases s with
  | bytes content => exact ⟨content, rfl⟩
  | missing => cases h
  | unreadable => cases h

theorem Stored.bytes_of_model {s : Stored} {m : PcaModel} (h : s.model = .ok m) :
    ∃ bytes, s = .bytes bytes := by
  cases s with
  | bytes content => exact ⟨content, rfl⟩
  | missing => cases h
  | unreadable => cases h

theorem Stored.isPresent_of_threshold {s : Stored} {r : Option ScoreKind × Float}
    (h : s.threshold = .ok r) : s.isPresent = true := by
  obtain ⟨bytes, rfl⟩ := bytes_of_threshold h
  rfl

theorem Stored.isPresent_of_model {s : Stored} {m : PcaModel} (h : s.model = .ok m) :
    s.isPresent = true := by
  obtain ⟨bytes, rfl⟩ := bytes_of_model h
  rfl

/-- A threshold that is kept reads back, if it is finite. -/
theorem Calibration.threshold_of_bytes {c : Calibration} {r : Option ScoreKind × Float} :
    (Stored.bytes c.thresholdBytes).threshold = .ok r ↔
      c.threshold.isFinite = true ∧ r = (some c.kind, c.threshold) := by
  unfold Stored.threshold thresholdBytes
  simp only [Text.ofBytes?_toUTF8]
  rw [mapError_eq_ok, readThreshold_eq_ok]

/-- A model that is kept reads back, if it can be used. -/
theorem PcaModel.model_of_bytes {m m' : PcaModel} :
    (Stored.bytes m.bytes).model = .ok m' ↔
      m' = m ∧ m.sampleCount < twoTo 64 ∧ m.fault? = none := by
  have hread : PcaModel.read (.ofBytes m.bytes) = PcaModel.read m.toJson.pretty := by
    rw [bytes, Text.ofBytes_toUTF8, String.toList_ofList]
  unfold Stored.model
  simp only [hread]
  constructor
  · intro h
    split at h
    · rename_i m₁ hok
      obtain ⟨rfl, -, hcount⟩ := read_pretty.mp hok
      obtain ⟨hfault, rfl⟩ := checked_eq_ok.mp (mapError_eq_ok.mp h)
      exact ⟨rfl, hcount, hfault⟩
    · cases h
  · rintro ⟨rfl, hcount, hfault⟩
    rw [read_pretty.mpr ⟨rfl, all_isFinite_of_fault? hfault, hcount⟩]
    exact mapError_eq_ok.mpr (checked_eq_ok.mpr ⟨hfault, rfl⟩)

namespace ModelPaths

/-- What has to be read before files say anything. -/
theorem load_eq_some {files : StoredFiles} {c : Calibration}
    (h : paths.load files = .ok (some c)) :
    ∃ kind? x, files.threshold.threshold = .ok (kind?, x) ∧
      match kind?.getD (if files.marker.isPresent then .fallback else .model) with
      | .fallback => c = .byRate x
      | .model => ∃ m, files.model.model = .ok m ∧ c = .byModel m x := by
  unfold load at h
  split at h
  · cases h
  split at h
  · cases h
  obtain ⟨⟨kind?, x⟩, hthreshold, h⟩ := bind_eq_ok h
  refine ⟨kind?, x, hthreshold, ?_⟩
  simp only at h
  generalize kind?.getD _ = kind at h ⊢
  cases kind with
  | fallback =>
      cases h
      rfl
  | model =>
      simp only at h
      split at h
      · cases h
      · obtain ⟨m, hm, h⟩ := bind_eq_ok h
        cases h
        exact ⟨m, hm, rfl⟩

/-- Files that are consistent say what was kept last, or they say nothing. -/
theorem Consistent.load_eq (hc : paths.Consistent t last) {c : Calibration}
    (hload : paths.load (paths.look t) = .ok (some c)) : last = some c := by
  obtain ⟨kind?, x, hthreshold, hkind⟩ := load_eq_some hload
  obtain ⟨bytes, hbytes⟩ := Stored.bytes_of_threshold hthreshold
  obtain ⟨-, c₀, hlast, rfl, hm⟩ := hc bytes (FileTree.stored_eq_bytes hbytes)
  rw [hbytes] at hthreshold
  cases (Calibration.threshold_of_bytes.mp hthreshold).2
  rw [hlast]
  cases c₀ with
  | byRate x =>
      obtain rfl : c = .byRate x := hkind
      rfl
  | byModel m x =>
      obtain ⟨m', hmodel, rfl⟩ :
          ∃ m', (paths.look t).model.model = .ok m' ∧ c = .byModel m' x := hkind
      -- the model that was read is the one of the same attempt
      obtain ⟨content, hcontent⟩ := Stored.bytes_of_model hmodel
      obtain rfl : m.bytes = content :=
        Option.some.inj ((hm m x rfl).symm.trans (FileTree.stored_eq_bytes hcontent))
      rw [hcontent] at hmodel
      rw [(PcaModel.model_of_bytes.mp hmodel).1]

/-- Files in which there is a sign of what was kept do not look as if nothing had been kept. -/
theorem IsMarked.load_ne_none (h : paths.IsMarked t) : paths.load (paths.look t) ≠ .ok none := by
  have hpresent :
      ¬ ((!(paths.look t).marker.isPresent && !(paths.look t).model.isPresent) = true) := by
    rcases h with h | h
    · simp [look, h.isPresent]
    · simp [look, h.isPresent]
  intro hload
  rw [load, if_neg hpresent] at hload
  split at hload
  · cases hload
  obtain ⟨⟨kind?, x⟩, -, hload⟩ := bind_eq_ok hload
  simp only at hload
  split at hload
  · cases hload
  · split at hload
    · cases hload
    · obtain ⟨m, -, hload⟩ := bind_eq_ok hload
      cases hload

/-- What a run of attempts leaves behind. -/
theorem attempts_leave (hapart : paths.Apart)
    (hfresh : t₀.file? (finalPlace paths.threshold) = none)
    (attempts : List (Attempt paths))
    (hrun : t₀.performAll (attempts.flatMap (·.done)) = (true, t)) :
    paths.Consistent t (Attempt.committed? attempts) ∧
      ((∃ a ∈ attempts, a.IsComplete) → paths.IsMarked t) := by
  induction attempts using List.reverseRecOn generalizing t with
  | nil =>
      cases hrun
      exact ⟨consistent_of_none hfresh _, fun ⟨a, ha, _⟩ => absurd ha List.not_mem_nil⟩
  | append_singleton rest a ih =>
      rw [List.flatMap_append] at hrun
      obtain ⟨t₁, hrest, hlast⟩ := FileTree.performAll_append_ok hrun
      rw [List.flatMap_cons, List.flatMap_nil, List.append_nil] at hlast
      obtain ⟨hc, hmarked⟩ := ih hrest
      rw [Attempt.committed?_snoc]
      refine ⟨hc.attempt hapart a hlast, ?_⟩
      rintro ⟨b, hb, hcomplete⟩
      rcases List.mem_append.mp hb with hb | hb
      · exact (hmarked ⟨b, hb, hcomplete⟩).attempt hapart a hlast
      · rw [List.mem_singleton.mp hb] at hcomplete
        exact hcomplete.isMarked hapart hlast

/-- **Whatever happens while something is kept, the files never lie.** Let any number of attempts be
made to keep something below a directory, each of which may stop after any of its steps and in the
middle of writing a file, with no threshold there at first.  If the files then say anything, it is
what the last attempt was to keep that put a threshold in its place.  And once an attempt has been
completed, the files never look as if nothing had been kept. -/
theorem load_eq_committed (directory : String) {t₀ t : FileTree}
    (attempts : List (Attempt (inDirectory directory)))
    (hfresh : t₀.file? (finalPlace (inDirectory directory).threshold) = none)
    (hrun : t₀.performAll (attempts.flatMap (·.done)) = (true, t)) :
    (∀ c, (inDirectory directory).load ((inDirectory directory).look t) = .ok (some c) →
        Attempt.committed? attempts = some c) ∧
      ((∃ a ∈ attempts, a.IsComplete) →
        (inDirectory directory).load ((inDirectory directory).look t) ≠ .ok none) := by
  obtain ⟨hc, hmarked⟩ := attempts_leave (apart_inDirectory directory) hfresh attempts hrun
  exact ⟨fun c hload => hc.load_eq hload, fun hcomplete => (hmarked hcomplete).load_ne_none⟩

/-- A model is written and its threshold is not, a threshold for the rate is kept, and the next one is
not: the files hold the one that was kept, and the model beside it is passed over. -/
theorem load_after_interruption :
    let model : PcaModel :=
      ⟨.replicate 6 0.0, .replicate 6 1.0, [[1.0, 0.0, 0.0, 0.0, 0.0, 0.0]], [1.0], 10⟩
    let interrupted : Attempt (inDirectory "state") := ⟨.byModel model 3.5, _, .take 5 _⟩
    let kept : Attempt (inDirectory "state") := ⟨.byRate 1.5, _, .refl _⟩
    let again : Attempt (inDirectory "state") := ⟨.byRate 2.5, _, .take 2 _⟩
    ∃ t, FileTree.empty.performAll ([interrupted, kept, again].flatMap (·.done)) = (true, t) ∧
      t.exists? (.parse (inDirectory "state").model) = true ∧
      (inDirectory "state").load ((inDirectory "state").look t) = .ok (some (.byRate 1.5)) := by
  intro model interrupted kept again
  let t := (FileTree.empty.performAll ([interrupted, kept, again].flatMap (·.done))).2
  have hrun : FileTree.empty.performAll ([interrupted, kept, again].flatMap (·.done)) = (true, t) :=
    Prod.ext (by decide +kernel) rfl
  have hcommitted : Attempt.committed? [interrupted, kept, again] = some (.byRate 1.5) := by
    have hkept : kept.commits = true := by decide +kernel
    have hagain : again.commits = false := by decide +kernel
    simp only [Attempt.committed?, List.reverse_cons, List.reverse_nil, List.nil_append,
      List.cons_append, List.find?, hkept, hagain, Option.map_some, kept]
  have hanswers : ((inDirectory "state").load ((inDirectory "state").look t)).toOption.any
      Option.isSome = true := by decide +kernel
  obtain ⟨found, hfound, hsome⟩ := exists_ok hanswers
  obtain ⟨c, rfl⟩ := Option.isSome_iff_exists.mp hsome
  obtain ⟨hload, -⟩ := load_eq_committed "state" [interrupted, kept, again]
    (Option.isNone_iff_eq_none.mp (by decide +kernel)) hrun
  obtain rfl : c = .byRate 1.5 := Option.some.inj ((hload c hfound).symm.trans hcommitted)
  exact ⟨t, hrun, by decide +kernel, hfound⟩

end ModelPaths

end TrafficWatch
