import TrafficWatch.Proofs.Learner.Active
import TrafficWatch.Proofs.Learner.Training

/-!
# Learner — Reachable

The learners that can come about: they are started over any files and serve any requests
(`Learner.Reachable`).  In all of them no training is going on, and what is in force carries the
number of activations as its version and comes from files or from samples (`ActiveCell.IsAccounted`).
-/

namespace TrafficWatch

variable {σ : Type}

/-- Where what is in force comes from. -/
inductive Calibration.Source (settings : Deployment) (c : Calibration) : Prop where
  | files (archive : Archive) (h : archive.held = .ok (some c))
  | samples (samples : List Features) (h : settings.calibrate samples = .ok c)

/-- What is in force, if anything, came last and came from somewhere. -/
structure ActiveCell.IsAccounted (settings : Deployment) (cell : ActiveCell) : Prop where
  versions : cell.current = none → cell.versions = 0
  version : ∀ active, cell.current = some active → active.version = cell.versions
  source : ∀ active, cell.current = some active → active.calibration.Source settings

theorem ActiveCell.isAccounted_empty (settings : Deployment) : empty.IsAccounted settings :=
  ⟨fun _ => rfl, nofun, nofun⟩

theorem ActiveCell.isAccounted_swap {settings : Deployment} {c : Calibration} (h : c.Source settings)
    (cell : ActiveCell) (poolSize samples : Nat) (now : Instant) :
    (cell.swap (.ofCalibration poolSize samples now c)).IsAccounted settings := by
  obtain ⟨active, hswap, hversion, hfound⟩ := cell.swap_spec poolSize samples now c
  rw [hswap]
  refine ⟨nofun, fun active' hactive => ?_, fun active' hactive => ?_⟩
  · cases hactive
    exact hversion
  · cases hactive
    rwa [hfound]

namespace Learner

/-- **The learners that can come about** under settings.  What the listener keeps may change from
outside between requests. -/
inductive Reachable (hear : Listener σ) (settings : Deployment) : Learner → Prop where
  | start {archive : Archive} {now : Instant} {s s' : σ} {l : Learner}
      (h : resume hear settings archive now s = .ok (l, s')) : Reachable hear settings l
  | serve {l : Learner} (h : Reachable hear settings l) (r : Request) (s : σ) :
      Reachable hear settings (serve hear r l s).1

namespace Reachable

variable {hear : Listener σ} {settings : Deployment} {l : Learner}

theorem isReady (h : Reachable hear settings l) (hquiet : hear.IsQuiet) : l.IsReady := by
  induction h with
  | start h => exact (resume_spec hquiet h).1
  | serve _ r s ih => exact (serve_spec hquiet ih r s).ready

theorem settings_eq (h : Reachable hear settings l) (hquiet : hear.IsQuiet) :
    l.settings = settings := by
  induction h with
  | start h => exact (resume_spec hquiet h).2.1
  | serve h r s ih => exact (serve_spec hquiet (h.isReady hquiet) r s).settings.trans ih

/-- **What is in force is accounted for.** -/
theorem isAccounted (h : Reachable hear settings l) (hquiet : hear.IsQuiet) :
    l.cell.IsAccounted settings := by
  induction h with
  | start h =>
      cases (resume_spec hquiet h).2.2 with
      | empty _ hcell =>
          rw [hcell]
          exact ActiveCell.isAccounted_empty settings
      | restored c _ hheld hcell =>
          rw [hcell]
          exact ActiveCell.isAccounted_swap (.files _ hheld) _ _ _ _
  | serve h r s ih =>
      cases (serve_spec hquiet (h.isReady hquiet) r s).change with
      | rests hcell =>
          rw [hcell]
          exact ih
      | brings a _ hbrings =>
          obtain ⟨samples, -, hfound, hcell⟩ := hbrings.found
          rw [h.settings_eq hquiet] at hfound
          rw [hcell]
          exact ActiveCell.isAccounted_swap (.samples samples hfound) _ _ _ _

theorem status_version (h : Reachable hear settings l) (hquiet : hear.IsQuiet) :
    l.status.version = l.cell.versions := by
  have haccounted := h.isAccounted hquiet
  rw [status]
  cases hcurrent : l.cell.current with
  | none => exact (haccounted.versions hcurrent).symm
  | some active => exact haccounted.version active hcurrent

end Reachable

end Learner

end TrafficWatch
