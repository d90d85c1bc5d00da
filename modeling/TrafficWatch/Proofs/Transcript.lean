import TrafficWatch.Detector
import TrafficWatch.Proofs.Rules.History

/-!
# Transcript

Machines that answer one step after the other.  A transcript says what a machine answers to each step
and where it is after it.  A machine that is made of two has the transcripts of the two, side by side
(`transcript_join`); machines that stay related show the same (`transcript_related`).

The rules, a learner and whole detectors are such machines.  They answer observations, trainings and
sweeps; a step that does not concern a detector leaves it as it is.
-/

namespace TrafficWatch

variable {ι α β γ ω ω₁ ω₂ σ : Type}

/-! ### Machines -/

/-- What a machine answers to steps, one after the other, and where it is after each. -/
def transcript (act : ι → α → ω × α) : List ι → α → List (ω × α)
  | [], _ => []
  | step :: rest, a => act step a :: transcript act rest (act step a).2

/-- What holds of every answer to a step holds throughout a transcript. -/
theorem forall_transcript {act : ι → α → ω × α} (P : ω → Prop) (h : ∀ step a, P (act step a).1)
    (steps : List ι) (a : α) : ∀ x ∈ transcript act steps a, P x.1 := by
  induction steps generalizing a with
  | nil => exact fun x hx => absurd hx List.not_mem_nil
  | cons step rest ih => exact List.forall_mem_cons.mpr ⟨h step a, ih _⟩

/-- **Two machines in one**: if neither part of a machine has a say in the steps of the other, this
holds for whole runs. -/
theorem transcript_join {act : ι → γ → ω × γ} {first : ι → α → ω₁ × α} {second : ι → β → ω₂ × β}
    {both : ω₁ → ω₂ → ω} {join : α → β → γ}
    (h : ∀ step a b, act step (join a b) =
      (both (first step a).1 (second step b).1, join (first step a).2 (second step b).2))
    (steps : List ι) (a : α) (b : β) :
    transcript act steps (join a b) =
      List.zipWith (fun x y => (both x.1 y.1, join x.2 y.2))
        (transcript first steps a) (transcript second steps b) := by
  induction steps generalizing a b with
  | nil => rfl
  | cons step rest ih =>
      rw [transcript, transcript, transcript, List.zipWith_cons_cons, h, ih]

/-- **Machines that stay related** in every step show the same throughout. -/
theorem transcript_related {φ : Type} {first : ι → α → ω₁ × α} {second : ι → β → ω₂ × β}
    {R : α → β → Prop} {show₁ : ω₁ × α → φ} {show₂ : ω₂ × β → φ}
    (h : ∀ step a b, R a b →
      show₁ (first step a) = show₂ (second step b) ∧ R (first step a).2 (second step b).2)
    (steps : List ι) {a : α} {b : β} (hab : R a b) :
    (transcript first steps a).map show₁ = (transcript second steps b).map show₂ := by
  induction steps generalizing a b with
  | nil => rfl
  | cons step rest ih =>
      obtain ⟨hshown, hafter⟩ := h step a b hab
      rw [transcript, transcript, List.map_cons, List.map_cons, hshown, ih hafter]

/-! ### Detectors -/

/-- What can happen to detectors. -/
inductive DetectorStep where
  | observe (o : Observation)
  | retrain (now : Instant)
  /-- A sweep of idle windows from outside. -/
  | evictIdle (now : Instant)

/-- What detectors answer to a step. -/
inductive Answer where
  | verdict (v : Verdict)
  /-- What came of a training, if there is a learner. -/
  | outcome (outcome : Option Outcome)
  /-- How many windows were dropped. -/
  | dropped (count : Nat)

/-- The verdict, if the step asked for one. -/
def Answer.verdict? : Answer → Option Verdict
  | verdict v => some v
  | _ => none

/-- What the rules answer, and the rules after it. -/
def RuleDetector.answer (step : DetectorStep) (r : RuleDetector) : Answer × RuleDetector :=
  match step with
  | .observe o =>
    let (v, r) := r.observe o.event o.time
    (.verdict v, r)
  | .retrain _ => (.outcome none, r)
  | .evictIdle now =>
    let (count, r) := r.evictIdle now
    (.dropped count, r)

/-- What a learner answers, and the learner after it. -/
def Learner.answer (hear : Listener σ) (step : DetectorStep) (ls : Learner × σ) :
    Answer × Learner × σ :=
  match step with
  | .observe o =>
    let (v, after) := ls.1.observe hear o.event o.time ls.2
    (.verdict v, after)
  | .retrain now =>
    let (outcome, after) := ls.1.retrain hear now ls.2
    (.outcome (some outcome), after)
  | .evictIdle _ => (.dropped 0, ls)

/-- What detectors answer, and the detectors after it. -/
def Detector.answer (hear : Listener σ) (step : DetectorStep) (ds : Detector × σ) :
    Answer × Detector × σ :=
  match step with
  | .observe o =>
    let (v, after) := ds.1.observe hear o.event o.time ds.2
    (.verdict v, after)
  | .retrain now =>
    match ds.1.retrain? hear now ds.2 with
    | some (outcome, after) => (.outcome (some outcome), after)
    | none => (.outcome none, ds)
  | .evictIdle now =>
    let (count, d) := ds.1.evictIdle now
    (.dropped count, d, ds.2)

end TrafficWatch
