import TrafficWatch.Learner.Calibration
import TrafficWatch.Proofs.Baseline.Statistics
import TrafficWatch.Proofs.Pca.Fit

/-!
# Learner — Calibration

What a training finds can be kept: the threshold is finite, and a model passes its check
(`Deployment.calibrate_isKeepable`).  Whether it is a model is decided by the variance alone
(`Deployment.isByRate_of_calibrate`).
-/

namespace TrafficWatch

namespace Calibration

/-- Whether the score is the rate. -/
def isByRate : Calibration → Bool
  | byRate _ => true
  | byModel _ _ => false

/-- What can be relied on when events are scored. -/
structure IsSound (c : Calibration) : Prop where
  threshold : c.threshold.isFinite = true
  model : ∀ m x, c = .byModel m x → m.IsSound

/-- What reads back once it is written. -/
structure IsKeepable (c : Calibration) : Prop where
  threshold : c.threshold.isFinite = true
  model : ∀ m x, c = .byModel m x → m.sampleCount < twoTo 64 ∧ m.fault? = none

end Calibration

namespace Deployment

/-- The usual settings on a machine with one processor, which adds one product after the other. -/
def plain : Deployment :=
  ⟨.usual 1, .inOrder⟩

variable {s : Deployment} {samples : List Features} {c : Calibration}

theorem calibrateByRate_spec (h : s.calibrateByRate samples = .ok c) :
    ∃ v ∈ samples, c = .byRate v.rate := by
  unfold Settings.calibrateByRate at h
  split at h
  · rename_i x hquantile
    cases h
    obtain ⟨v, hv, rfl⟩ := List.mem_map.mp (mem_of_quantile hquantile)
    exact ⟨v, hv, rfl⟩
  · cases h

theorem calibrateByModel_spec (h : s.calibrateByModel samples = .ok c) :
    ∃ m x, c = .byModel m x ∧ PcaModel.fit s.products samples s.rank = .ok m ∧ x.isFinite = true := by
  obtain ⟨m, hfit, h⟩ := bind_eq_ok h
  split at h
  · cases h
  split at h
  · cases h
    exact ⟨m, _, rfl, hfit, ‹_›⟩
  · cases h

/-- The variance alone decides whether there is a model. -/
theorem isByRate_of_calibrate (h : s.calibrate samples = .ok c) :
    c.isByRate = s.isDegenerate (totalVariance samples) := by
  unfold calibrate at h
  split at h
  · rename_i hdegenerate
    obtain ⟨v, -, rfl⟩ := calibrateByRate_spec h
    exact hdegenerate.symm
  · rename_i hdegenerate
    obtain ⟨m, x, rfl, -⟩ := calibrateByModel_spec h
    exact (Bool.eq_false_iff.mpr hdegenerate).symm

/-- **What a training finds is sound**, whatever the samples are. -/
theorem calibrate_isSound (h : s.calibrate samples = .ok c) : c.IsSound := by
  unfold calibrate at h
  split at h
  · rename_i hdegenerate
    -- the threshold is the rate of a sample, and with so little variety all rates are finite
    obtain ⟨v, hv, rfl⟩ := calibrateByRate_spec h
    exact ⟨isFinite_of_totalVariance_lt (by decide) (of_decide_eq_true hdegenerate) hv, nofun⟩
  · obtain ⟨m, x, rfl, hfit, hx⟩ := calibrateByModel_spec h
    refine ⟨hx, fun m' x' heq => ?_⟩
    cases heq
    exact PcaModel.fault?_eq_none.mp (PcaModel.fit_spec hfit).1

/-- **What a training finds can be kept**, if the count of the samples fits a machine word. -/
theorem calibrate_isKeepable (h : s.calibrate samples = .ok c)
    (hcount : samples.length < twoTo 64) : c.IsKeepable := by
  have hsound := calibrate_isSound h
  refine ⟨hsound.threshold, fun m x heq => ⟨?_, PcaModel.fault?_eq_none.mpr (hsound.model m x heq)⟩⟩
  subst heq
  unfold calibrate at h
  split at h
  · obtain ⟨v, -, heq⟩ := calibrateByRate_spec h
    cases heq
  · obtain ⟨m', x', heq, hfit, -⟩ := calibrateByModel_spec h
    cases heq
    rw [(PcaModel.fit_spec hfit).2]
    exact hcount

end Deployment

end TrafficWatch
