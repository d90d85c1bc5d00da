import TrafficWatch.Proofs.Baseline.Quantile
import TrafficWatch.Proofs.Learner.Reachable
import TrafficWatch.Proofs.Settings.Validity

/-!
# Learner — False positives

How many of its own samples a training leaves beyond the threshold.  The threshold is a quantile of
the scores of the samples (`Deployment.quantile_of_calibrate`), the scores are those that the model in
force gives afterwards (`Active.score_eq_calibration`), and not more values are beyond a quantile than
there are places behind it.  So the score quantile bounds the share of samples that are found to be
outliers (`Learner.flags_few`).
-/

namespace TrafficWatch

variable {σ : Type}

/-- The score of a vector by what was found. -/
def Calibration.score : Calibration → Features → Float
  | byRate _, v => v.rate
  | byModel m _, v => m.score v.toList

/-- The threshold that was found is a quantile of the scores of the samples. -/
theorem Deployment.quantile_of_calibrate {s : Deployment} {samples : List Features} {c : Calibration}
    (h : s.calibrate samples = .ok c) :
    quantile (samples.map c.score) s.scoreQuantile = some c.threshold := by
  unfold calibrate at h
  split at h
  · unfold Settings.calibrateByRate at h
    split at h
    · rename_i x hquantile
      cases h
      exact hquantile
    · cases h
  · obtain ⟨m, -, h⟩ := bind_eq_ok h
    split at h
    · cases h
    · rename_i x hquantile
      obtain ⟨-, rfl⟩ := ite_eq_ok.mp h
      exact hquantile

/-- With too little variety for a model there is always a threshold for the rate. -/
theorem Deployment.exists_calibrate_of_isDegenerate {s : Deployment} {samples : List Features}
    (hsamples : samples ≠ []) (h : s.isDegenerate (totalVariance samples) = true) :
    ∃ c, s.calibrate samples = .ok c := by
  obtain ⟨t, ht⟩ := exists_quantile (mt List.map_eq_nil_iff.mp hsamples) s.scoreQuantile
  refine ⟨.byRate t, ?_⟩
  rw [calibrate, if_pos h, Settings.calibrateByRate, ht]

namespace Active

/-- What is in force scores as what was found. -/
theorem score_eq_calibration (a : Active) (v : Features) : a.score v = a.calibration.score v := by
  rw [score_eq]
  cases a.calibration <;> rfl

variable {a : Active} {samples : List Features} {q : Float}

/-- **The threshold is the score of a sample**, if it is a quantile of their scores. -/
theorem exists_threshold_eq (h : quantile (samples.map a.calibration.score) q = some a.threshold) :
    ∃ v ∈ samples, a.threshold = a.score v := by
  obtain ⟨v, hv, hscore⟩ := List.mem_map.mp (mem_of_quantile h)
  exact ⟨v, hv, by rw [score_eq_calibration, hscore]⟩

/-- **Few samples are beyond the threshold**, if it is a quantile of their scores. -/
theorem countP_evaluate_le (h : quantile (samples.map a.calibration.score) q = some a.threshold) :
    samples.countP (fun v => (a.evaluate v).1) ≤
      samples.length - 1 - quantilePlace q (samples.length - 1) := by
  have hcount : samples.countP (fun v => (a.evaluate v).1) =
      (samples.map a.calibration.score).countP fun x => decide (a.threshold < x) := by
    rw [List.countP_map]
    refine List.countP_congr fun v _ => ?_
    rw [evaluate, isBeyond, score_eq_calibration]
    rfl
  have hlength : (samples.map a.calibration.score).length = samples.length := List.length_map _
  rw [hcount, ← hlength]
  exact countP_beyond_quantile h

end Active

namespace Learner

/-- The samples of a training that a request can bring about. -/
def trainingSamples (l : Learner) : Request → List Features
  | .observe e now => (l.retain e now).buffer.features
  | .retrain now => (l.forget now).buffer.features

variable {hear : Listener σ} {settings : Deployment} {l : Learner}

/-- What is brought is found in what is left to remember. -/
theorem trainingSamples_of_brought {r : Request} {a : Activation} (h : l.brought? r = some a) :
    l.trainingSamples r = (l.noted r).buffer.features := by
  cases r with
  | observe e now => rfl
  | retrain now =>
      obtain ⟨active, hactive, -⟩ := brought?_retrain h
      rw [noted_retrain hactive, trainingSamples]

/-- **What comes into force with a request** was found in its samples. -/
theorem IsReady.swap_of_brought (h : l.IsReady) (hquiet : hear.IsQuiet) {r : Request} {s : σ}
    (hbrought : (serve hear r l s).1.cell ≠ l.cell) :
    ∃ c, l.settings.calibrate (l.trainingSamples r) = .ok c ∧
      (serve hear r l s).1.cell = l.cell.swap (.ofCalibration l.settings.scorerPoolSize
        (l.trainingSamples r).length r.time c) := by
  cases hfound : l.brought? r with
  | none =>
      rw [serve_of_unbrought hear h.idle hfound] at hbrought
      exact absurd (Alike.noted l r).cell hbrought
  | some a =>
      rw [trainingSamples_of_brought hfound, BaselineBuffer.length_features,
        serve_of_brought hear h.idle hfound]
      exact ⟨a.calibration, calibrate_of_brought hfound,
        (cell_conclude hquiet (isRetraining_activate _ _ _ _) a s).trans
          (cell_activate_noted l r _ _ _)⟩

/-- A learner is started only with settings that can be run. -/
theorem Reachable.flaw?_eq_none (h : Reachable hear settings l) : settings.flaw? = none := by
  induction h with
  | start h =>
      obtain ⟨l₁, hstart, -⟩ := resume_eq_ok h
      exact flaw?_of_start hstart
  | serve _ _ _ ih => exact ih

/-- **The quantile bounds the false positives.** Take any learner that can come about and any request
that brings something into force.  The new threshold is the score that what is now in force gives one
of the samples it was found in, and of these not more are beyond it than there are places behind that
of the quantile.  The place is the whole part of the share of the last place, and with the whole share
no sample is beyond the threshold. -/
theorem flags_few (hquiet : hear.IsQuiet) (h : Reachable hear settings l) (r : Request) (s : σ)
    (hbrought : (serve hear r l s).1.cell ≠ l.cell) :
    let samples := l.trainingSamples r
    let last := samples.length - 1
    let k := min (settings.scoreQuantile * Float.ofNat last).toUInt64.toNat last
    ∃ active, (serve hear r l s).1.cell.current = some active ∧
      active.samples = samples.length ∧
      (∃ v ∈ samples, active.threshold = active.score v) ∧
      samples.countP (fun v => (active.evaluate v).1) ≤ samples.length - 1 - k ∧
      (samples.length ≤ 2 ^ 53 →
        k = min ⌊Double.value (settings.scoreQuantile * Float.ofNat last)⌋₊ last ∧
          (settings.scoreQuantile = 1.0 → ∀ v ∈ samples, (active.evaluate v).1 = false)) := by
  intro samples last k
  have hshare := Settings.isShare_scoreQuantile h.flaw?_eq_none
  have hsettings := h.settings_eq hquiet
  obtain ⟨c, hcalibrate, hcell⟩ := (h.isReady hquiet).swap_of_brought hquiet hbrought
  rw [hsettings] at hcalibrate
  obtain ⟨active, hswap, -, hfound⟩ :=
    l.cell.swap_spec l.settings.scorerPoolSize samples.length r.time c
  have hactive : (serve hear r l s).1.cell.current = some active := by
    rw [hcell, hswap]
  have hquantile : quantile (samples.map active.calibration.score) settings.scoreQuantile =
      some active.threshold := by
    rw [← active.threshold_calibration, hfound]
    exact Deployment.quantile_of_calibrate hcalibrate
  have hplace : quantilePlace settings.scoreQuantile (samples.length - 1) = k :=
    quantilePlace_of_isShare hshare last
  have hcount : samples.countP (fun v => (active.evaluate v).1) ≤ samples.length - 1 - k :=
    hplace ▸ Active.countP_evaluate_le hquantile
  refine ⟨active, hactive, ?_, Active.exists_threshold_eq hquantile, hcount, fun hfew => ?_⟩
  · cases congrArg ActiveCell.current hswap
    exact Active.samples_ofCalibration _ _ _ c
  have hlast : last < 2 ^ 53 := by
    change samples.length - 1 < 2 ^ 53
    omega
  refine ⟨hplace.symm.trans (quantilePlace_eq_floor hshare hlast), fun hwhole v hv => ?_⟩
  -- with the whole share, the place is the last one
  have hk : k = last := by
    rw [← hplace, hwhole]
    exact quantilePlace_one hlast
  have hnone : samples.countP (fun v => (active.evaluate v).1) = 0 := by
    rw [hk, Nat.sub_self] at hcount
    exact Nat.le_zero.mp hcount
  exact Bool.eq_false_iff.mpr (List.countP_eq_zero.mp hnone v hv)

/-- A learner that is taught three rates, and leaves the middle one at its threshold. -/
theorem flags_few_hasty :
    let settings : Deployment :=
      { Deployment.plain with
        baselineSize := 3, baselineCap := 3, scoreQuantile := 0.5, minVariance := 100.0 }
    let rate (x : Float) (now : Instant) : Request :=
      .observe ⟨none, x, 200, false, false, "GET", "/", 3.0⟩ now
    ∃ l₀ s₀, resume unheard settings ⟨none, .empty⟩ 0 () = .ok (l₀, s₀) ∧
      let l := (serve unheard (rate 7.0 1) (serve unheard (rate 5.0 0) l₀ s₀).1 ()).1
      let samples := l.trainingSamples (rate 6.0 2)
      ∃ active, (serve unheard (rate 6.0 2) l ()).1.cell.current = some active ∧
        samples.length = 3 ∧ (∃ v ∈ samples, active.threshold = active.score v) ∧
          samples.countP (fun v => (active.evaluate v).1) ≤ 1 := by
  intro settings rate
  let event : Event := ⟨none, 6.0, 200, false, false, "GET", "/", 3.0⟩
  have hrun : (resume unheard settings ⟨none, .empty⟩ 0 ()).toOption.any (fun start =>
      let l := (serve unheard (rate 7.0 1) (serve unheard (rate 5.0 0) start.1 start.2).1 ()).1
      let samples := l.trainingSamples (rate 6.0 2)
      l.cell.current.isNone && samples.length == 3 &&
        l.settings.isDegenerate (totalVariance samples) && l.settings.baselineSize == 3) = true := by
    decide +kernel
  obtain ⟨⟨l₀, s₀⟩, hstart, hrun⟩ := exists_ok hrun
  refine ⟨l₀, s₀, hstart, ?_⟩
  intro l samples
  have hreachable : Reachable unheard settings l :=
    ((Reachable.start hstart).serve (rate 5.0 0) s₀).serve (rate 7.0 1) ()
  have hready := hreachable.isReady isQuiet_unheard
  simp only [Bool.and_eq_true, beq_iff_eq, Option.isNone_iff_eq_none] at hrun
  obtain ⟨⟨⟨hnone, hlength⟩, hdegenerate⟩, hsize⟩ := hrun
  have hlength : samples.length = 3 := hlength
  -- the third rate brings a threshold into force
  obtain ⟨c, hc⟩ := Deployment.exists_calibrate_of_isDegenerate
    (List.length_pos_iff.mp (hlength ▸ Nat.zero_lt_succ 2)) hdegenerate
  have hfound : (l.remember event.features 2).firstFound? = some c := by
    refine firstFound?_eq_some.mpr ⟨?_, hc⟩
    rw [← BaselineBuffer.length_features]
    exact Nat.le_of_eq (hsize.trans hlength.symm)
  have hcell : (serve unheard (rate 6.0 2) l ()).1.cell = _ :=
    congrArg (fun result => result.2.1.cell)
      (observe_of_found unheard hready.idle hnone rfl hfound ())
  have hbrought : (serve unheard (rate 6.0 2) l ()).1.cell ≠ l.cell := fun heq => by
    have hcurrent := congrArg ActiveCell.current (hcell.symm.trans heq)
    rw [hnone] at hcurrent
    cases hcurrent
  obtain ⟨active, hactive, -, hthreshold, hcount, -⟩ :=
    flags_few isQuiet_unheard hreachable (rate 6.0 2) () hbrought
  have hplace : min (settings.scoreQuantile * Float.ofNat (3 - 1)).toUInt64.toNat (3 - 1) = 1 := by
    decide +kernel
  have hlength' : (l.trainingSamples (rate 6.0 2)).length = 3 := hlength
  rw [hlength', hplace] at hcount
  exact ⟨active, hactive, hlength, hthreshold, hcount⟩

end Learner

end TrafficWatch
