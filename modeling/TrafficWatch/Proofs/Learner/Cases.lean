import TrafficWatch.Learner.Basic
import TrafficWatch.Proofs.Baseline.Buffer
import TrafficWatch.Proofs.Learner.Calibration

/-!
# Learner — Cases

What observing and training come to, case by case, for a learner that is in no training.  While
nothing is in force an event is remembered if it is clean, and with enough events there is a first
training, which finds nothing (`observe_of_unfound`) or something (`observe_of_found`).  When
something is in force an event is judged and remembered if it is clean (`observe_of_current`), and a
training looks at what is left once the samples that are too old are forgotten: it is skipped
(`retrain_of_error`) or brings something (`retrain_of_ok`).

So a request does no more than to change what is remembered (`Learner.noted`) and to bring something
into force, if it brings anything (`Learner.brought?`).  What is said of every request below is said
by these two cases (`serve_of_unbrought`, `serve_of_brought`).
-/

namespace TrafficWatch

variable {σ : Type}

/-! ### Requests -/

/-- What can be asked of a learner. -/
inductive Request where
  | observe (e : Event) (now : Instant)
  | retrain (now : Instant)

/-- The time of a request. -/
def Request.time : Request → Instant
  | observe _ now => now
  | retrain now => now

namespace Learner

/-- The learner after a request, and what the listener hands back. -/
def serve (hear : Listener σ) : Request → Learner → σ → Learner × σ
  | .observe e now, l, s => (l.observe hear e now s).2
  | .retrain now, l, s => (l.retrain hear now s).2

/-- The outcome of a request, if it is one for a training. -/
def outcome? (hear : Listener σ) : Request → Learner → σ → Option Outcome
  | .observe _ _, _, _ => none
  | .retrain now, l, s => some (l.retrain hear now s).1

/-- The learner after requests, one after the other. -/
def serveAll (hear : Listener σ) : List Request → Learner → σ → Learner × σ
  | [], l, s => (l, s)
  | r :: rest, l, s => serveAll hear rest (serve hear r l s).1 (serve hear r l s).2

end Learner

/-- What a training after the first reports when it brings something, found in so many samples. -/
def Calibration.outcome (samples : Nat) : Calibration → Outcome
  | byRate threshold => .recalibrated threshold samples
  | byModel _ threshold => .retrained threshold samples

/-- What a training after the first is announced as when it brings something. -/
def Calibration.trainingKind : Calibration → TrainingKind
  | byRate _ => .recalibrate
  | byModel _ _ => .retrain

/-- What a training after the first reports that looked at so many samples. -/
def Outcome.ofTraining (samples : Nat) : Except SkipReason Calibration → Outcome
  | .error reason => .skipped reason
  | .ok c => c.outcome samples

namespace Learner

variable {l : Learner} {active : Active} {c : Calibration} {e : Event} {now : Instant}

/-- The learner in a training. -/
def busy (l : Learner) : Learner :=
  { l with isTraining := true }

/-- What an event leaves: it is remembered if it is clean. -/
def retain (l : Learner) (e : Event) (now : Instant) : Learner :=
  if e.isClean then l.remember e.features now else l

theorem conclude_none (hear : Listener σ) (hidle : l.isTraining = false) (s : σ) :
    conclude hear none l.busy s = (l, s) := by
  obtain ⟨settings, cell, buffer, isTraining⟩ := l
  cases hidle
  rfl

/-! ### Observing -/

/-- An event that is judged. -/
theorem observe_of_current (hear : Listener σ) (hactive : l.cell.current = some active) (e : Event)
    (now : Instant) (s : σ) :
    l.observe hear e now s =
      (if (active.evaluate e.features).1 then .anomaly .outlier else .normal, l.retain e now, s) := by
  unfold observe
  simp only [hactive]
  split <;> rfl

/-- While nothing is in force, every event is normal. -/
theorem observe_of_none (hear : Listener σ) (hnone : l.cell.current = none) (e : Event)
    (now : Instant) (s : σ) :
    l.observe hear e now s = (.normal,
      if e.isClean && l.settings.baselineSize ≤ (l.retain e now).buffer.size then
        trainFirst hear now (l.retain e now) s
      else (l.retain e now, s)) := by
  unfold observe
  simp only [hnone]
  exact (apply_ite (Prod.mk Verdict.normal) _ _ _).symm

/-- An event that is not clean leaves nothing. -/
theorem observe_of_unclean (hear : Listener σ) (hnone : l.cell.current = none)
    (hunclean : e.isClean = false) (now : Instant) (s : σ) :
    l.observe hear e now s = (.normal, l, s) := by
  rw [observe_of_none hear hnone, retain, hunclean]
  rfl

/-- A clean event is remembered, and may lead to the first training. -/
theorem observe_of_clean (hear : Listener σ) (hnone : l.cell.current = none)
    (hclean : e.isClean = true) (now : Instant) (s : σ) :
    l.observe hear e now s = (.normal, trainFirst hear now (l.remember e.features now) s) := by
  have htrained : (l.remember e.features now).isTrained = false := by
    rw [isTrained, remember, hnone]
    rfl
  rw [observe_of_none hear hnone, retain, hclean, if_pos rfl, Bool.true_and]
  congr 1
  -- a training that would be too early is not tried in the first place
  unfold trainFirst
  split
  · rfl
  · rename_i hearly
    rw [if_pos]
    simp only [decide_eq_true_eq, Nat.not_le] at hearly
    simp [show (l.remember e.features now).settings = l.settings from rfl, hearly]

/-- What a first training finds, if it is not too early. -/
def firstFound? (l : Learner) : Option Calibration :=
  if l.settings.baselineSize ≤ l.buffer.size then
    (l.settings.calibrate l.buffer.features).toOption
  else none

theorem firstFound?_eq_some : l.firstFound? = some c ↔
    l.settings.baselineSize ≤ l.buffer.size ∧ l.settings.calibrate l.buffer.features = .ok c := by
  unfold firstFound?
  split
  · rename_i hlate
    rw [toOption_eq_some, and_iff_right hlate]
  · rename_i hearly
    exact iff_of_false nofun fun h => hearly h.1

theorem firstTraining_busy (l : Learner) (now : Instant) :
    firstTraining l.busy now =
      match l.settings.calibrate l.buffer.features with
      | .ok c => (some ⟨.baseline, c⟩, l.busy.activate c l.buffer.features.length now)
      | .error _ => (none, l.busy) :=
  rfl

theorem trainFirst_of_late (hear : Listener σ) (hidle : l.isTraining = false)
    (hnone : l.cell.current = none) (hlate : l.settings.baselineSize ≤ l.buffer.size)
    (now : Instant) (s : σ) :
    trainFirst hear now l s =
      conclude hear (firstTraining l.busy now).1 (firstTraining l.busy now).2 s := by
  unfold trainFirst
  rw [if_neg (by simp [hidle, isTrained, hnone, hlate])]
  rfl

/-- **A first training that finds nothing** leaves the learner as it is. -/
theorem trainFirst_of_none (hear : Listener σ) (hidle : l.isTraining = false)
    (hnone : l.cell.current = none) (h : l.firstFound? = none) (now : Instant) (s : σ) :
    trainFirst hear now l s = (l, s) := by
  rcases Nat.lt_or_ge l.buffer.size l.settings.baselineSize with hearly | hlate
  · unfold trainFirst
    rw [if_pos (by simp [hearly])]
  · rw [trainFirst_of_late hear hidle hnone hlate, firstTraining_busy]
    cases hc : l.settings.calibrate l.buffer.features with
    | ok c => exact absurd (firstFound?_eq_some.mpr ⟨hlate, hc⟩) (by simp [h])
    | error fault => exact conclude_none hear hidle s

/-- **A first training that finds something** brings it into force. -/
theorem trainFirst_of_some (hear : Listener σ) (hidle : l.isTraining = false)
    (hnone : l.cell.current = none) (h : l.firstFound? = some c) (now : Instant) (s : σ) :
    trainFirst hear now l s =
      conclude hear (some ⟨.baseline, c⟩) (l.busy.activate c l.buffer.size now) s := by
  obtain ⟨hlate, hc⟩ := firstFound?_eq_some.mp h
  rw [trainFirst_of_late hear hidle hnone hlate, firstTraining_busy, hc,
    BaselineBuffer.length_features]

/-- **A clean event with which nothing is found** is remembered. -/
theorem observe_of_unfound (hear : Listener σ) (hidle : l.isTraining = false)
    (hnone : l.cell.current = none) (hclean : e.isClean = true)
    (h : (l.remember e.features now).firstFound? = none) (s : σ) :
    l.observe hear e now s = (.normal, l.remember e.features now, s) := by
  have hidle' : (l.remember e.features now).isTraining = false := hidle
  have hnone' : (l.remember e.features now).cell.current = none := hnone
  rw [observe_of_clean hear hnone hclean, trainFirst_of_none hear hidle' hnone' h]

/-- **A clean event with which something is found** brings it into force. -/
theorem observe_of_found (hear : Listener σ) (hidle : l.isTraining = false)
    (hnone : l.cell.current = none) (hclean : e.isClean = true)
    (h : (l.remember e.features now).firstFound? = some c) (s : σ) :
    l.observe hear e now s = (.normal, conclude hear (some ⟨.baseline, c⟩)
      ((l.remember e.features now).busy.activate c (l.remember e.features now).buffer.size now)
      s) := by
  have hidle' : (l.remember e.features now).isTraining = false := hidle
  have hnone' : (l.remember e.features now).cell.current = none := hnone
  rw [observe_of_clean hear hnone hclean, trainFirst_of_some hear hidle' hnone' h]

/-! ### Training -/

/-- What a training after the first finds at a time. -/
def found (l : Learner) (active : Active) (now : Instant) : Except SkipReason Calibration :=
  laterTraining l.settings active (l.forget now).buffer.features

theorem retrain_of_idle (hear : Listener σ) (hidle : l.isTraining = false) (now : Instant) (s : σ) :
    l.retrain hear now s = ((train l.busy now).1,
      conclude hear (train l.busy now).2.1 (train l.busy now).2.2 s) := by
  unfold retrain
  rw [if_neg (by simp [hidle])]
  rfl

/-- While nothing is in force, a training does nothing. -/
theorem retrain_of_none (hear : Listener σ) (hidle : l.isTraining = false)
    (hnone : l.cell.current = none) (now : Instant) (s : σ) :
    l.retrain hear now s = (.skipped .notTrained, l, s) := by
  have htrain : train l.busy now = (.skipped .notTrained, none, l.busy) := by
    simp only [train, busy, hnone]
  rw [retrain_of_idle hear hidle, htrain, conclude_none hear hidle]

/-- **A training that finds nothing** only forgets what is too old. -/
theorem retrain_of_error (hear : Listener σ) (hidle : l.isTraining = false)
    (hactive : l.cell.current = some active) {reason : SkipReason}
    (h : l.found active now = .error reason) (s : σ) :
    l.retrain hear now s = (.skipped reason, l.forget now, s) := by
  have htrain : train l.busy now = (.skipped reason, none, (l.forget now).busy) := by
    simp only [train, busy, hactive]
    change (match l.found active now with
      | .error reason => _
      | .ok c => _) = _
    rw [h]
    rfl
  have hforgotten : (l.forget now).isTraining = false := hidle
  rw [retrain_of_idle hear hidle, htrain, conclude_none hear hforgotten]

/-- A model is given up for the rate by no training: the variance that would have it so is looked at
before. -/
theorem laterTraining_spec {settings : Deployment} {active : Active} {samples : List Features}
    {c : Calibration} (h : laterTraining settings active samples = .ok c) :
    settings.calibrate samples = .ok c ∧ (c.isByRate = true → active.isFallback = true) := by
  unfold laterTraining at h
  split at h
  · cases h
  simp only at h
  split at h
  · cases h
  · rename_i hkeeps
    have hc := mapError_eq_ok.mp h
    refine ⟨hc, fun hrate => ?_⟩
    rw [Deployment.isByRate_of_calibrate hc] at hrate
    simpa [hrate] using hkeeps

/-- **A training that brings something.** -/
theorem retrain_of_ok (hear : Listener σ) (hidle : l.isTraining = false)
    (hactive : l.cell.current = some active) (h : l.found active now = .ok c) (s : σ) :
    l.retrain hear now s = (c.outcome (l.forget now).buffer.size,
      conclude hear (some ⟨c.trainingKind, c⟩)
        ((l.forget now).busy.activate c (l.forget now).buffer.size now) s) := by
  have htrain : train l.busy now = (c.outcome (l.forget now).buffer.size,
      some ⟨c.trainingKind, c⟩,
      (l.forget now).busy.activate c (l.forget now).buffer.size now) := by
    simp only [train, busy, hactive]
    change (match l.found active now with
      | .error reason => _
      | .ok c => _) = _
    rw [h, ← BaselineBuffer.length_features]
    cases c <;> rfl
  rw [retrain_of_idle hear hidle, htrain]

/-- The outcome of a training after the first. -/
theorem retrain_fst (hear : Listener σ) (hidle : l.isTraining = false)
    (hactive : l.cell.current = some active) (now : Instant) (s : σ) :
    (l.retrain hear now s).1 =
      .ofTraining (l.forget now).buffer.size (l.found active now) := by
  cases h : l.found active now with
  | error reason => rw [retrain_of_error hear hidle hactive h, Outcome.ofTraining]
  | ok c => rw [retrain_of_ok hear hidle hactive h, Outcome.ofTraining]

/-! ### What a request comes to -/

/-- What a request leaves the learner with to remember: an event if it is clean, and when there is a
training, what is not too old for it. -/
def noted (l : Learner) : Request → Learner
  | .observe e now => l.retain e now
  | .retrain now => if l.isTrained then l.forget now else l

/-- What a request brings into force, if anything. -/
def brought? (l : Learner) : Request → Option Activation
  | .observe e now =>
    if e.isClean && !l.isTrained then (l.retain e now).firstFound?.map fun c => ⟨.baseline, c⟩
    else none
  | .retrain now =>
    l.cell.current.bind fun active =>
      (l.found active now).toOption.map fun c => ⟨c.trainingKind, c⟩

variable {r : Request} {a : Activation}

theorem retain_of_clean (hclean : e.isClean = true) : l.retain e now = l.remember e.features now :=
  if_pos hclean

theorem noted_retrain (hactive : l.cell.current = some active) :
    l.noted (.retrain now) = l.forget now := by
  rw [noted, isTrained, hactive]
  rfl

/-- Only a first training brings something with an event. -/
theorem brought?_observe (h : l.brought? (.observe e now) = some a) :
    l.cell.current = none ∧ e.isClean = true ∧ a.kind = .baseline ∧
      (l.remember e.features now).firstFound? = some a.calibration := by
  rw [brought?] at h
  split at h
  · rename_i hfirst
    obtain ⟨hclean, hnone⟩ := Bool.and_eq_true_iff.mp hfirst
    rw [retain_of_clean hclean] at h
    obtain ⟨c, hc, rfl⟩ := Option.map_eq_some_iff.mp h
    exact ⟨by simpa [isTrained] using hnone, hclean, rfl, hc⟩
  · cases h

/-- Only a training after the first brings something else. -/
theorem brought?_retrain (h : l.brought? (.retrain now) = some a) :
    ∃ active, l.cell.current = some active ∧ a.kind = a.calibration.trainingKind ∧
      l.found active now = .ok a.calibration := by
  obtain ⟨active, hactive, h⟩ := Option.bind_eq_some_iff.mp h
  obtain ⟨c, hc, rfl⟩ := Option.map_eq_some_iff.mp h
  exact ⟨active, hactive, rfl, toOption_eq_some.mp hc⟩

/-- **A request that brings nothing** only changes what is remembered. -/
theorem serve_of_unbrought (hear : Listener σ) (hidle : l.isTraining = false)
    (h : l.brought? r = none) (s : σ) : serve hear r l s = (l.noted r, s) := by
  cases r with
  | observe e now =>
      cases hcurrent : l.cell.current with
      | some active => exact congrArg Prod.snd (observe_of_current hear hcurrent e now s)
      | none =>
          cases hclean : e.isClean with
          | false =>
              have hnoted : l.noted (.observe e now) = l := if_neg (by simp [hclean])
              rw [hnoted]
              exact congrArg Prod.snd (observe_of_unclean hear hcurrent hclean now s)
          | true =>
              have hnoted : l.noted (.observe e now) = l.remember e.features now :=
                retain_of_clean hclean
              have hfound : (l.remember e.features now).firstFound? = none := by
                rw [← retain_of_clean hclean]
                simpa [brought?, isTrained, hclean, hcurrent] using h
              rw [hnoted]
              exact congrArg Prod.snd (observe_of_unfound hear hidle hcurrent hclean hfound s)
  | retrain now =>
      cases hcurrent : l.cell.current with
      | none =>
          have hnoted : l.noted (.retrain now) = l := if_neg (by simp [isTrained, hcurrent])
          rw [hnoted]
          exact congrArg Prod.snd (retrain_of_none hear hidle hcurrent now s)
      | some active =>
          rw [noted_retrain hcurrent]
          cases hfound : l.found active now with
          | error reason => exact congrArg Prod.snd (retrain_of_error hear hidle hcurrent hfound s)
          | ok c => simp [brought?, hcurrent, hfound, Except.toOption] at h

/-- **A request that brings something** brings it into force, and the listener is told of it. -/
theorem serve_of_brought (hear : Listener σ) (hidle : l.isTraining = false)
    (h : l.brought? r = some a) (s : σ) :
    serve hear r l s = conclude hear (some a)
      ((l.noted r).busy.activate a.calibration (l.noted r).buffer.size r.time) s := by
  obtain ⟨kind, c⟩ := a
  cases r with
  | observe e now =>
      obtain ⟨hnone, hclean, rfl, hfound⟩ := brought?_observe h
      have hnoted : l.noted (.observe e now) = l.remember e.features now := retain_of_clean hclean
      rw [hnoted]
      exact congrArg Prod.snd (observe_of_found hear hidle hnone hclean hfound s)
  | retrain now =>
      obtain ⟨active, hactive, hkind, hfound⟩ := brought?_retrain h
      obtain rfl : kind = c.trainingKind := hkind
      rw [noted_retrain hactive]
      exact congrArg Prod.snd (retrain_of_ok hear hidle hactive hfound s)

/-- What a request brings was found in what it leaves to remember. -/
theorem calibrate_of_brought (h : l.brought? r = some a) :
    l.settings.calibrate (l.noted r).buffer.features = .ok a.calibration := by
  cases r with
  | observe e now =>
      obtain ⟨-, hclean, -, hfound⟩ := brought?_observe h
      have hnoted : l.noted (.observe e now) = l.remember e.features now := retain_of_clean hclean
      rw [hnoted]
      exact (firstFound?_eq_some.mp hfound).2
  | retrain now =>
      obtain ⟨active, hactive, -, hfound⟩ := brought?_retrain h
      rw [noted_retrain hactive]
      exact (laterTraining_spec hfound).1

end Learner

end TrafficWatch
