import TrafficWatch.Learner.Active
import TrafficWatch.Proofs.Learner.Calibration
import TrafficWatch.Proofs.Pca.ScorerPool

/-!
# Learner — Active

What is in force was found in a training or read from files (`Active.calibration`).  That alone
decides how a vector is judged (`Active.evaluate_congr`): the scorers of a pool do not show in a
score.
-/

namespace TrafficWatch

namespace Active

/-- What is in force, as it was found. -/
def calibration (a : Active) : Calibration :=
  match a.scoring with
  | .byRate => .byRate a.threshold
  | .byModel pool => .byModel pool.model a.threshold

theorem threshold_calibration (a : Active) : a.calibration.threshold = a.threshold := by
  unfold calibration
  split <;> rfl

theorem isByRate_calibration (a : Active) : a.calibration.isByRate = a.isFallback := by
  unfold calibration isFallback
  cases a.scoring <;> rfl

theorem calibration_of_model? {a : Active} {m : PcaModel} (h : a.model? = some m) :
    a.calibration = .byModel m a.threshold := by
  unfold model? at h
  unfold calibration
  cases hscoring : a.scoring with
  | byRate =>
      rw [hscoring] at h
      cases h
  | byModel pool =>
      rw [hscoring] at h
      cases h
      rfl

theorem calibration_ofCalibration (poolSize samples : Nat) (now : Instant) (c : Calibration) :
    (ofCalibration poolSize samples now c).calibration = c := by
  cases c <;> rfl

theorem samples_ofCalibration (poolSize samples : Nat) (now : Instant) (c : Calibration) :
    (ofCalibration poolSize samples now c).samples = samples := by
  cases c <;> rfl

theorem score_eq (a : Active) (v : Features) :
    a.score v = match a.calibration with
      | .byRate _ => v.rate
      | .byModel m _ => m.score v.toList := by
  unfold score calibration
  cases a.scoring with
  | byRate => rfl
  | byModel pool => exact pool.score_eq v

/-- What was found decides how a vector is judged. -/
theorem evaluate_congr {a b : Active} (h : a.calibration = b.calibration) (v : Features) :
    a.evaluate v = b.evaluate v := by
  have hscore : a.score v = b.score v := by rw [score_eq, score_eq, h]
  have hthreshold : a.threshold = b.threshold := by
    rw [← threshold_calibration, h, threshold_calibration]
  rw [evaluate, evaluate, isBeyond, isBeyond, hscore, hthreshold]

end Active

/-- What comes into force is what was found, with the next version. -/
theorem ActiveCell.swap_spec (cell : ActiveCell) (poolSize samples : Nat) (now : Instant)
    (c : Calibration) :
    ∃ active, cell.swap (.ofCalibration poolSize samples now c) = ⟨some active, cell.versions + 1⟩ ∧
      active.version = cell.versions + 1 ∧ active.calibration = c := by
  cases c <;> exact ⟨_, rfl, rfl, rfl⟩

end TrafficWatch
