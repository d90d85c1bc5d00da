import TrafficWatch.Proofs.Learner.FalsePositives
import TrafficWatch.Proofs.Learner.WarmUp
import TrafficWatch.Proofs.Pca.Trainable

/-!
# Learner — On time

Whether a learner has learned once it has seen as many clean events as it waits for, if they are
finite.  It has when they have too little variety for a model, and otherwise when there are two of them
and their scales are finite; nothing else can fail (`Deployment.exists_calibrate_iff`,
`Learner.learns_on_time`).
-/

namespace TrafficWatch

open Double (Within unit value)

variable {σ : Type}

/-! ### What has been measured -/

/-- The rate and the entropy of an event that is handed in have a property. -/
def Request.Measures (P : Float → Prop) : Request → Prop
  | observe e _ => P e.rate ∧ P e.agentEntropy
  | retrain _ => True

instance (P : Float → Prop) [DecidablePred P] (r : Request) : Decidable (r.Measures P) := by
  cases r <;> unfold Request.Measures <;> infer_instance

/-- What holds of the rate and of the entropy, of zero and of one, holds of every feature. -/
theorem Event.forall_features {P : Float → Prop} (hzero : P 0.0) (hone : P 1.0) {e : Event}
    (he : P e.rate ∧ P e.agentEntropy) : ∀ i (hi : i < 6), P e.features[i] := by
  have hindicator (b : Bool) : P (indicator b) := by
    cases b
    · exact hzero
    · exact hone
  intro i hi
  match i with
  | 0 => exact he.1
  | 1 | 2 | 3 | 5 => exact hindicator _
  | 4 => exact he.2

theorem forall_features_of_measures {P : Float → Prop} (hzero : P 0.0) (hone : P 1.0)
    {requests : List Request} (h : ∀ r ∈ requests, r.Measures P) :
    ∀ v ∈ (samplesOf requests).map (·.features), ∀ i (hi : i < 6), P v[i] := by
  refine List.forall_mem_map.mpr fun x hx => ?_
  obtain ⟨r, hr, hsample⟩ := List.mem_filterMap.mp hx
  obtain ⟨e, now, rfl, -, rfl⟩ := Request.sample?_eq_some hsample
  exact Event.forall_features hzero hone (h _ hr)

/-! ### Trainings -/

theorem Settings.isFinite_minVariance {s : Settings} (h : s.flaw? = none) :
    s.minVariance.isFinite = true := by
  have hrule := flaw?_eq_none.mp h
    (!s.minVariance.isFinite || s.minVariance < 0.0, .badVarianceGuard) (by simp [rules])
  simp only [Bool.or_eq_false_iff, Bool.not_eq_false'] at hrule
  exact hrule.1

namespace Deployment

variable {s : Deployment} {samples : List Features}

/-- **Two samples are enough for a training that ends with a model**, if they can be learned from. -/
theorem exists_calibrateByModel (hlawful : s.products.IsLawful) (h : IsTrainable samples)
    (hmany : 2 ≤ samples.length) : ∃ c, s.calibrateByModel samples = .ok c := by
  obtain ⟨m, hfit⟩ := h.exists_fit_eq_ok hlawful hmany s.rank
  have hsamples : samples.map (fun v => m.score v.toList) ≠ [] :=
    List.ne_nil_of_length_pos (by rw [List.length_map]; omega)
  obtain ⟨threshold, hthreshold⟩ := exists_quantile hsamples s.scoreQuantile
  have hfinite : threshold.isFinite = true := by
    obtain ⟨v, hv, rfl⟩ := List.mem_map.mp (mem_of_quantile hthreshold)
    exact h.isFinite_score hlawful hfit hv
  refine ⟨.byModel m threshold, ?_⟩
  simp only [calibrateByModel, hfit, bind, Except.bind, hthreshold, hfinite, if_true]

/-- **When a training finds something** in finite samples that a machine word counts. -/
theorem exists_calibrate_iff (hlawful : s.products.IsLawful) (hnonempty : samples ≠ [])
    (hcounted : samples.length < 2 ^ 64)
    (hfinite : ∀ v ∈ samples, ∀ i (hi : i < 6), v[i].isFinite = true) :
    (∃ c, s.calibrate samples = .ok c) ↔
      totalVariance samples < s.minVariance ∨
        2 ≤ samples.length ∧ ∀ x ∈ (PcaModel.scaling samples).toList, x.isFinite = true := by
  by_cases hdegenerate : s.isDegenerate (totalVariance samples) = true
  · exact iff_of_true (exists_calibrate_of_isDegenerate hnonempty hdegenerate)
      (.inl (of_decide_eq_true hdegenerate))
  · have hcalibrate : s.calibrate samples = s.calibrateByModel samples := if_neg hdegenerate
    have hvariance : ¬ totalVariance samples < s.minVariance := fun h =>
      hdegenerate (decide_eq_true h)
    rw [hcalibrate, or_iff_right hvariance]
    constructor
    · rintro ⟨c, hc⟩
      obtain ⟨m, x, rfl, hfit, -⟩ := calibrateByModel_spec hc
      obtain ⟨rfl, hmany, -, hnumbers⟩ := PcaModel.fit_eq_ok.mp hfit
      refine ⟨hmany, fun x hx => hnumbers x ?_⟩
      simp only [PcaModel.numbers, PcaModel.candidate, List.mem_append]
      exact .inl (.inl (.inr hx))
    · rintro ⟨hmany, hscales⟩
      have htrainable : IsTrainable samples := fun i hi =>
        ⟨⟨hnonempty, hcounted, fun v hv => hfinite v hv i hi⟩,
          hscales _ (Vector.mem_toList_iff.mpr (Vector.getElem_mem hi))⟩
      exact exists_calibrateByModel hlawful htrainable hmany

end Deployment

/-! ### Moderate samples -/

theorem isFinite_googol : (1e100 : Float).isFinite = true := by
  decide +kernel

theorem value_googol : (value 1e100 : ℝ) ≤ unit 333 := by
  have hm : 0 < 2 ^ 52 := Nat.two_pow_pos 52
  have hcanonical : Double.IsCanonical (2 ^ 52) 281 := by constructor <;> norm_num
  have hle : 1e100 ≤ Double.pack (.finite .positive (2 ^ 52) 281 (Nat.two_pow_pos 52)) := by
    decide +kernel
  rw [Double.le_iff_value isFinite_googol (Double.isFinite_pack _ hm hcanonical.greatest)] at hle
  have hvalue : (value (Double.pack (.finite .positive (2 ^ 52) 281 hm)) : ℝ) = unit 333 := by
    rw [value, Double.parts_pack _ hm hcanonical, Double.valueOfParts_finite,
      Double.oneOfSign_positive, one_mul, Nat.cast_pow, Nat.cast_ofNat, ← Double.unit_ofNat 52,
      ← Double.unit_add]
    norm_num
  rw [← hvalue]
  exact_mod_cast hle

/-- **Moderate samples are enough for a training**, unless there is one only and the least variance is
zero. -/
theorem Deployment.exists_calibrate_of_moderate {s : Deployment} (hlawful : s.products.IsLawful)
    (hsound : s.flaw? = none) {samples : List Features} (hnonempty : samples ≠ [])
    (hcounted : samples.length < 2 ^ 64)
    (hmoderate : ∀ v ∈ samples, ∀ i (hi : i < 6), v[i].abs ≤ 1e100)
    (henough : 2 ≤ samples.length ∨ 0.0 < s.minVariance) : ∃ c, s.calibrate samples = .ok c := by
  have hwithin (v : Features) (hv : v ∈ samples) (i : ℕ) (hi : i < 6) : Within 333 v[i] :=
    Double.within_of_abs_le isFinite_googol (hmoderate v hv i hi) value_googol
  have hfinite (v : Features) (hv : v ∈ samples) (i : ℕ) (hi : i < 6) : v[i].isFinite = true :=
    (hwithin v hv i hi).finite
  rw [Deployment.exists_calibrate_iff hlawful hnonempty hcounted hfinite]
  rcases Nat.lt_or_ge samples.length 2 with hone | hmany
  · -- a lone sample has no variance
    have hpositive := henough.resolve_left (Nat.not_le.mpr hone)
    obtain ⟨v, rfl⟩ : ∃ v, samples = [v] := List.length_eq_one_iff.mp (by
      have := List.length_pos_of_ne_nil hnonempty
      omega)
    obtain ⟨htotal, hzero⟩ := totalVariance_singleton fun i hi => hfinite v List.mem_cons_self i hi
    refine .inl ((Double.lt_iff_value htotal (Settings.isFinite_minVariance hsound)).mpr ?_)
    rw [hzero]
    exact (Double.lt_iff_value rfl (Settings.isFinite_minVariance hsound)).mp hpositive
  · refine .inr ⟨hmany, fun x hx => ?_⟩
    obtain ⟨i, hi, rfl⟩ := Vector.mem_iff_getElem.mp (Vector.mem_toList_iff.mp hx)
    exact (isScaled_of_within hi hnonempty hcounted fun v hv => hwithin v hv i hi).scale

/-- Samples that are many enough, moderate, and varied enough for a model. -/
structure Settings.AllowsModel (s : Settings) (samples : List Features) : Prop where
  many : 2 ≤ samples.length
  counted : samples.length < 2 ^ 64
  due : s.minSamples ≤ samples.length
  moderate : ∀ v ∈ samples, ∀ i (hi : i < 6), v[i].abs ≤ 1e100
  varied : s.isDegenerate (totalVariance samples) = false

theorem Settings.allowsModel_iff {s : Settings} {samples : List Features} : s.AllowsModel samples ↔
    2 ≤ samples.length ∧ samples.length < 2 ^ 64 ∧ s.minSamples ≤ samples.length ∧
      (∀ v ∈ samples, ∀ i (hi : i < 6), v[i].abs ≤ 1e100) ∧
      s.isDegenerate (totalVariance samples) = false :=
  ⟨fun h => ⟨h.many, h.counted, h.due, h.moderate, h.varied⟩,
    fun ⟨hmany, hcounted, hdue, hmoderate, hvaried⟩ =>
      ⟨hmany, hcounted, hdue, hmoderate, hvaried⟩⟩

instance (s : Settings) (samples : List Features) : Decidable (s.AllowsModel samples) :=
  decidable_of_iff _ Settings.allowsModel_iff.symm

namespace Learner

/-- **Moderate samples with some variety are enough for a model**, also in a training after the
first. -/
theorem exists_laterTraining_of_allowsModel {s : Deployment} (hlawful : s.products.IsLawful)
    (hsound : s.flaw? = none) {samples : List Features} (h : s.AllowsModel samples)
    (active : Active) : ∃ m x, laterTraining s active samples = .ok (.byModel m x) := by
  have hnonempty : samples ≠ [] := List.ne_nil_of_length_pos (Nat.zero_lt_of_lt h.many)
  obtain ⟨c, hc⟩ := Deployment.exists_calibrate_of_moderate hlawful hsound hnonempty h.counted
    h.moderate (.inl h.many)
  have hmodel := (Deployment.isByRate_of_calibrate hc).trans h.varied
  cases c with
  | byRate x => cases hmodel
  | byModel m x =>
      refine ⟨m, x, ?_⟩
      simp only [laterTraining, if_neg (Nat.not_lt.mpr h.due), h.varied, Bool.false_and,
        Bool.false_eq_true, if_false, hc]
      rfl

variable {hear : Listener σ} {settings : Deployment} {l₀ : Learner}

/-- After as many clean events as it waits for, a learner has learned if something is found in them. -/
theorem learned_iff_calibrates (hquiet : hear.IsQuiet) (hwarming : IsWarming settings [] l₀) (s₀ : σ)
    {requests : List Request} (hcount : (samplesOf requests).length = settings.baselineSize) :
    (serveAll hear requests l₀ s₀).1.phase ≠ .warmUp ↔
      ∃ c, settings.calibrate ((samplesOf requests).map (·.features)) = .ok c := by
  have hall : (samplesOf requests).rtake settings.baselineCap = samplesOf requests := by
    rw [List.rtake, hcount, Nat.sub_eq_zero_of_le (Settings.baselineSize_le_cap hwarming.sound),
      List.drop_zero]
  have hteaches (c : Calibration) : settings.Teaches (samplesOf requests) c ↔
      settings.calibrate ((samplesOf requests).map (·.features)) = .ok c := by
    rw [Deployment.Teaches, hall, and_iff_right hcount.ge]
  simp only [← hteaches]
  cases Progress.serveAll hquiet hwarming requests s₀ with
  | warming h hheard hnone =>
      refine iff_of_false (not_not.mpr (phase_eq_warmUp.mpr h.current)) ?_
      rintro ⟨c, hc⟩
      exact hnone _ c (List.prefix_refl _) hc
  | learned hready hphase earlier c hearlier hc =>
      -- it waits for all of them, so none of them came after it had learned
      have hwhole := hearlier.eq_of_length_le (hcount.trans_le hc.1)
      exact iff_of_true hphase ⟨c, hwhole ▸ hc⟩

/-- If all of them are finite, it has learned unless their scales are not. -/
theorem learned_iff_of_finite (hlawful : settings.products.IsLawful) (hquiet : hear.IsQuiet)
    (hwarming : IsWarming settings [] l₀) (s₀ : σ) (hword : settings.baselineSize < 2 ^ 64)
    {requests : List Request} (hfinite : ∀ r ∈ requests, r.Measures (·.isFinite = true))
    (hcount : (samplesOf requests).length = settings.baselineSize) :
    let seen := (samplesOf requests).map (·.features)
    (serveAll hear requests l₀ s₀).1.phase ≠ .warmUp ↔
      totalVariance seen < settings.minVariance ∨
        2 ≤ settings.baselineSize ∧ ∀ x ∈ (PcaModel.scaling seen).toList, x.isFinite = true := by
  intro seen
  have hlength : seen.length = settings.baselineSize := by rw [List.length_map, hcount]
  have hnonempty : seen ≠ [] := List.ne_nil_of_length_pos
    (hlength ▸ Settings.baselineSize_pos hwarming.sound)
  rw [learned_iff_calibrates hquiet hwarming s₀ hcount, ← hlength]
  exact Deployment.exists_calibrate_iff hlawful hnonempty (hlength ▸ hword)
    (forall_features_of_measures (P := fun x => x.isFinite = true) rfl rfl hfinite)

/-- **When a learner learns on time.**  Let a learner be started over files from which nothing can be
read, and let it be asked anything until it has seen as many clean events as it waits for, all of them
finite.  It has learned exactly if their variance is too little for a model, or if there are two of
them and their scales are finite.  For rates and entropies up to `1e100` this is so, unless it waits for
one event only and no variance is too little.  In which order the machine adds products up makes no
difference. -/
theorem learns_on_time (hlawful : settings.products.IsLawful) (hquiet : hear.IsQuiet)
    {archive : Archive} {start : Instant} {s₀ s₁ : σ}
    (hstart : resume hear settings archive start s₀ = .ok (l₀, s₁))
    (hheld : ∀ c, archive.held ≠ .ok (some c)) (hword : settings.baselineSize < 2 ^ 64)
    {requests : List Request} (hfinite : ∀ r ∈ requests, r.Measures (·.isFinite = true))
    (hcount : (samplesOf requests).length = settings.baselineSize) :
    let seen := (samplesOf requests).map (·.features)
    let l := (serveAll hear requests l₀ s₁).1
    (l.phase ≠ .warmUp ↔
      totalVariance seen < settings.minVariance ∨
        2 ≤ settings.baselineSize ∧ ∀ x ∈ (PcaModel.scaling seen).toList, x.isFinite = true) ∧
    ((2 ≤ settings.baselineSize ∨ 0.0 < settings.minVariance) →
      (∀ r ∈ requests, r.Measures (·.abs ≤ 1e100)) → l.phase ≠ .warmUp) := by
  intro seen l
  obtain ⟨hwarming, rfl⟩ := isWarming_of_resume hstart hheld
  have hlength : seen.length = settings.baselineSize := by rw [List.length_map, hcount]
  have hnonempty : seen ≠ [] := List.ne_nil_of_length_pos
    (hlength ▸ Settings.baselineSize_pos hwarming.sound)
  refine ⟨learned_iff_of_finite hlawful hquiet hwarming s₁ hword hfinite hcount,
    fun henough hmoderate => (learned_iff_calibrates hquiet hwarming s₁ hcount).mpr ?_⟩
  rw [← hlength] at henough
  exact Deployment.exists_calibrate_of_moderate hlawful hwarming.sound hnonempty (hlength ▸ hword)
    (forall_features_of_measures (P := fun x => x.abs ≤ 1e100) (by decide +kernel)
      (by decide +kernel) hmoderate) henough

/-- An event of a client that is well, at a rate. -/
def eventAtRate (rate : Float) : Event :=
  ⟨none, rate, 200, false, false, "GET", "/", 3.0⟩

/-- A learner that waits for two events and is asked other things in between. -/
theorem learns_on_time_two :
    let settings : Deployment := { Deployment.plain with baselineSize := 2, baselineCap := 2 }
    let requests : List Request :=
      [.observe (eventAtRate 1.0) 0, .retrain 1,
        .observe { eventAtRate 2.0 with wafHit := true } 2, .observe (eventAtRate 3.0) 3]
    ∃ l₀, resume unheard settings ⟨none, .empty⟩ 0 () = .ok (l₀, ()) ∧
      (serveAll unheard requests l₀ ()).1.phase ≠ .warmUp := by
  intro settings requests
  have hstarts : (resume unheard settings ⟨none, .empty⟩ 0 ()).toOption.any (fun _ => true) = true := by
    decide +kernel
  obtain ⟨⟨l₀, s₁⟩, hstart, -⟩ := exists_ok hstarts
  have hfinite : ∀ r ∈ requests, r.Measures (·.isFinite = true) := by decide +kernel
  have hmoderate : ∀ r ∈ requests, r.Measures (·.abs ≤ 1e100) := by decide +kernel
  obtain ⟨-, hlearns⟩ := learns_on_time ProductSum.isLawful_inOrder isQuiet_unheard hstart nofun
    (by decide) hfinite (by decide +kernel)
  exact ⟨l₀, hstart, hlearns (.inl le_rfl) hmoderate⟩

/-- **Finite events are not always enough.**  A learner that waits for one event and finds no variance
too little goes on warming up, and so does one that waits for two of which one has a rate the square of
which no double holds. -/
theorem learns_late :
    let late (settings : Deployment) (rates : List Float) : Prop :=
      let requests := rates.map fun rate => Request.observe (eventAtRate rate) 0
      (∀ r ∈ requests, r.Measures (·.isFinite = true)) ∧
        (samplesOf requests).length = settings.baselineSize ∧
        ∃ l₀, resume unheard settings ⟨none, .empty⟩ 0 () = .ok (l₀, ()) ∧
          (serveAll unheard requests l₀ ()).1.phase = .warmUp
    late { Deployment.plain with baselineSize := 1, minVariance := 0.0 } [1.0] ∧
      late { Deployment.plain with baselineSize := 2 } [1e200, 2.0] := by
  intro late
  have hlate {settings : Deployment} (hlawful : settings.products.IsLawful) {rates : List Float}
      (hstarts : (resume unheard settings ⟨none, .empty⟩ 0 ()).toOption.any (fun _ => true) = true)
      (hword : settings.baselineSize < 2 ^ 64) :
      let requests := rates.map fun rate => Request.observe (eventAtRate rate) 0
      let seen := (samplesOf requests).map (·.features)
      (∀ r ∈ requests, r.Measures (·.isFinite = true)) →
      (samplesOf requests).length = settings.baselineSize →
      ¬ (totalVariance seen < settings.minVariance ∨
        2 ≤ settings.baselineSize ∧ ∀ x ∈ (PcaModel.scaling seen).toList, x.isFinite = true) →
      late settings rates := by
    intro requests seen hfinite hcount hfails
    obtain ⟨⟨l₀, s₁⟩, hstart, -⟩ := exists_ok hstarts
    obtain ⟨hwarming, -⟩ := isWarming_of_resume hstart nofun
    have hphase := learned_iff_of_finite hlawful isQuiet_unheard hwarming s₁ hword hfinite hcount
    exact ⟨hfinite, hcount, l₀, hstart, not_not.mp fun h => hfails (hphase.mp h)⟩
  have hlawful := ProductSum.isLawful_inOrder
  exact ⟨hlate hlawful (by decide +kernel) (by decide) (by decide +kernel) (by decide +kernel)
      (by decide +kernel),
    hlate hlawful (by decide +kernel) (by decide) (by decide +kernel) (by decide +kernel)
      (by decide +kernel)⟩

end Learner

end TrafficWatch
