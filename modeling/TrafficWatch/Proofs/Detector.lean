import TrafficWatch.Detector
import TrafficWatch.Ledger.Basic
import TrafficWatch.Proofs.Learner.Training

/-!
# Detector

What detectors find, apart from everything that is kept of it.  `Detector.findings` asks detectors one
request after the other while nobody listens, and collects the anomalies.  Detectors at work have
listeners, which hear of what comes into force; but a listener that leaves the learner as it is
(`Listener.IsPassive`) has no part in what they find (`Detector.observe_of_isPassive`,
`Detector.retrain?_of_isPassive`), and is told of one thing at most in a request (`Listener.Hears`).
-/

namespace TrafficWatch

variable {σ τ : Type}

/-! ### Passive listeners -/

/-- The listener leaves the learner as it is. -/
def Listener.IsPassive (hear : Listener σ) : Prop :=
  ∀ a l s, (hear a l s).1 = l

/-- What a listener keeps after it has been told of one thing, or of nothing. -/
inductive Listener.Hears (hear : Listener σ) (s : σ) : σ → Prop where
  | nothing : Hears hear s s
  | told (a : Activation) (l : Learner) : Hears hear s (hear a l s).2

theorem Listener.IsPassive.both {first : Listener σ} {second : Listener τ}
    (hfirst : first.IsPassive) (hsecond : second.IsPassive) : (first.both second).IsPassive :=
  fun a l s => (hsecond a _ s.2).trans (hfirst a l s.1)

namespace Learner

variable {hear : Listener σ}

theorem conclude_of_isPassive (h : hear.IsPassive) (a : Option Activation) (l : Learner) (s : σ) :
    ∃ s', hear.Hears s s' ∧ conclude hear a l s = ((conclude unheard a l ()).1, s') := by
  cases a with
  | none => exact ⟨s, .nothing, rfl⟩
  | some a =>
      refine ⟨(hear a l s).2, .told a l, ?_⟩
      simp only [conclude, h a l s, unheard]

theorem trainFirst_of_isPassive (h : hear.IsPassive) (now : Instant) (l : Learner) (s : σ) :
    ∃ s', hear.Hears s s' ∧ trainFirst hear now l s = ((trainFirst unheard now l ()).1, s') := by
  unfold trainFirst
  split
  · exact ⟨s, .nothing, rfl⟩
  · exact conclude_of_isPassive h _ _ s

/-- An event is judged and remembered as if nobody listened. -/
theorem observe_of_isPassive (h : hear.IsPassive) (e : Event) (now : Instant) (l : Learner) (s : σ) :
    ∃ s', hear.Hears s s' ∧ l.observe hear e now s =
      ((l.observe unheard e now ()).1, (l.observe unheard e now ()).2.1, s') := by
  cases hcurrent : l.cell.current with
  | some active =>
      rw [observe_of_current hear hcurrent, observe_of_current unheard hcurrent]
      exact ⟨s, .nothing, rfl⟩
  | none =>
      rw [observe_of_none hear hcurrent, observe_of_none unheard hcurrent]
      split
      · obtain ⟨s', hs', htrain⟩ := trainFirst_of_isPassive h now (l.retain e now) s
        exact ⟨s', hs', by rw [htrain]⟩
      · exact ⟨s, .nothing, rfl⟩

/-- A training runs as if nobody listened. -/
theorem retrain_of_isPassive (h : hear.IsPassive) (now : Instant) (l : Learner) (s : σ) :
    ∃ s', hear.Hears s s' ∧ l.retrain hear now s =
      ((l.retrain unheard now ()).1, (l.retrain unheard now ()).2.1, s') := by
  unfold retrain
  split
  · exact ⟨s, .nothing, rfl⟩
  · obtain ⟨s', hs', hconclude⟩ := conclude_of_isPassive h
      (train { l with isTraining := true } now).2.1 (train { l with isTraining := true } now).2.2 s
    exact ⟨s', hs', by simp only [hconclude]⟩

/-- What files hold comes into force, and is all that a listener hears at the start. -/
theorem hears_of_resume {settings : Deployment} {archive : Archive} {now : Instant} {s s' : σ}
    {l : Learner} (h : resume hear settings archive now s = .ok (l, s')) : hear.Hears s s' := by
  obtain ⟨l₁, -, ⟨c, -, hrestore⟩ | ⟨-, -, rfl⟩⟩ := resume_eq_ok h
  · have hs' : (hear ⟨.restore, c⟩ (l₁.activate c 0 now) s).2 = s' := congrArg Prod.snd hrestore
    exact hs' ▸ .told _ _
  · exact .nothing

end Learner

namespace Detector

variable {hear : Listener σ}

theorem observe_of_isPassive (h : hear.IsPassive) (e : Event) (now : Instant) (d : Detector)
    (s : σ) :
    ∃ s', hear.Hears s s' ∧ d.observe hear e now s =
      ((d.observe Learner.unheard e now ()).1, (d.observe Learner.unheard e now ()).2.1, s') := by
  cases d with
  | rules r => exact ⟨s, .nothing, rfl⟩
  | learner l | hybrid r l =>
      obtain ⟨s', hs', hobserve⟩ := l.observe_of_isPassive h e now s
      exact ⟨s', hs', by simp only [observe, hobserve]⟩

theorem retrain?_of_isPassive (h : hear.IsPassive) (now : Instant) (d : Detector) (s : σ) :
    ∃ s', hear.Hears s s' ∧ d.retrain? hear now s =
      (d.retrain? Learner.unheard now ()).map fun (outcome, d, _) => (outcome, d, s') := by
  cases d with
  | rules r => exact ⟨s, .nothing, rfl⟩
  | learner l | hybrid r l =>
      obtain ⟨s', hs', hretrain⟩ := l.retrain_of_isPassive h now s
      exact ⟨s', hs', by simp only [retrain?, hretrain, Option.map_some]⟩

theorem hears_of_ofSettings {settings : Deployment} {archive : Archive} {now : Instant} {s s' : σ}
    {d : Detector} (h : ofSettings hear settings archive now s = .ok (d, s')) : hear.Hears s s' := by
  unfold ofSettings at h
  split at h
  · cases h
  · unfold ofMode at h
    split at h
    · cases h
      exact .nothing
    · obtain ⟨⟨l, s₁⟩, hresume, h⟩ := bind_eq_ok h
      cases h
      exact Learner.hears_of_resume hresume
    · obtain ⟨⟨l, s₁⟩, hresume, h⟩ := bind_eq_ok h
      cases h
      exact Learner.hears_of_resume hresume

/-! ### Findings -/

/-- What detectors find when they are asked, and the detectors after it, while nobody listens. -/
def ask (d : Detector) : Request → Option Anomaly × Detector
  | .observe e now =>
    let (v, d, _) := d.observe Learner.unheard e now ()
    (v.reason?.map fun reason => ⟨e, reason, now⟩, d)
  | .retrain now => (none, ((d.retrain? Learner.unheard now ()).map (·.2.1)).getD d)

/-- The detectors after requests. -/
def askAll (d : Detector) (requests : List Request) : Detector :=
  requests.foldl (fun d r => (d.ask r).2) d

theorem askAll_append (d : Detector) (requests more : List Request) :
    d.askAll (requests ++ more) = (d.askAll requests).askAll more :=
  List.foldl_append

/-- What detectors find in requests, one after the other, while nobody listens. -/
def findings (d : Detector) : List Request → List Anomaly
  | [] => []
  | r :: rest => (d.ask r).1.toList ++ (d.ask r).2.findings rest

theorem findings_append (d : Detector) (requests : List Request) (more : List Request) :
    d.findings (requests ++ more) = d.findings requests ++ (d.askAll requests).findings more := by
  induction requests generalizing d with
  | nil => rfl
  | cons r rest ih =>
      rw [List.cons_append, findings, findings, ih, List.append_assoc]
      rfl

end Detector

end TrafficWatch
