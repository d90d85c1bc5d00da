import TrafficWatch.Proofs.Learner.Calibration
import TrafficWatch.Proofs.Sequence
import TrafficWatch.Proofs.Transcript

/-!
# Detector — Hybrid

Rules and a learner that judge together are the product of the two.  In one step the hybrid does what
its parts do (`Detector.answer_hybrid`), and therefore in every run (`Detector.hybrid_answers`): a hit
of the rules hides nothing from the learner, and the learner has the say only where the rules find
nothing.
-/

namespace TrafficWatch

variable {σ : Type}

/-- The answer of two detectors that judge together: the verdict of the first one goes first, windows
are those of the first one and trainings those of the second one. -/
def Answer.join : Answer → Answer → Answer
  | verdict first, verdict second => verdict (first.orElse second)
  | outcome _, outcome second => outcome second
  | first, _ => first

/-- A reason is given by one of the two, and by the second one only if the first one finds nothing. -/
theorem Answer.join_eq_anomaly {first second : Answer} {reason : Reason}
    (h : first.join second = verdict (.anomaly reason)) :
    first = verdict .normal ∨ first = verdict (.anomaly reason) := by
  cases first with
  | verdict v =>
      cases v with
      | normal => exact .inl rfl
      | anomaly found =>
          -- a verdict goes first, whatever the second one answers
          have hfirst : (verdict (.anomaly found)).join second = verdict (.anomaly found) := by
            cases second <;> rfl
          exact .inr (hfirst ▸ h)
  | outcome first => cases second <;> cases h
  | dropped count => cases second <;> cases h

/-- The rules never give the reason that is the learner's. -/
theorem Settings.judge_ne_outlier (s : Settings) (e : Event) (c : Counts) :
    s.judge e c ≠ .anomaly .outlier := by
  unfold judge
  repeat' split
  all_goals decide

theorem RuleDetector.answer_ne_outlier (step : DetectorStep) (r : RuleDetector) :
    (r.answer step).1 ≠ .verdict (.anomaly .outlier) := by
  cases step with
  | observe o => exact fun h => (r.sweep o.time).settings.judge_ne_outlier _ _ (Answer.verdict.inj h)
  | retrain now | evictIdle now => exact nofun

namespace Detector

/-- Rules beside a learner and what its listener keeps. -/
def beside (r : RuleDetector) (ls : Learner × σ) : Detector × σ :=
  (hybrid r ls.1, ls.2)

/-- **One step of a hybrid** is a step of the rules and a step of the learner. -/
theorem answer_hybrid (hear : Listener σ) (step : DetectorStep) (r : RuleDetector)
    (ls : Learner × σ) :
    answer hear step (beside r ls) =
      ((r.answer step).1.join (Learner.answer hear step ls).1,
        beside (r.answer step).2 (Learner.answer hear step ls).2) := by
  cases step with
  | observe o => rfl
  | retrain now => rfl
  | evictIdle now => rfl

/-- What hybrid settings ask for is made of rules that have seen nothing and of the learner that the
files allow; there are no detectors if there is no such learner. -/
theorem ofSettings_hybrid (hear : Listener σ) (settings : Deployment) (hmode : settings.mode = .hybrid)
    (archive : Archive) (now : Instant) (s : σ) :
    ofSettings hear settings archive now s =
      (Learner.resume hear settings archive now s).map (beside (.start settings.toSettings now)) := by
  unfold ofSettings
  cases hflaw : settings.flaw? with
  | some flaw =>
      have hstart : Learner.start settings = .error (.settings flaw) := by
        simp only [Learner.start, hflaw]
      rw [Learner.resume, hstart]
      rfl
  | none =>
      simp only [ofMode, hmode]
      cases Learner.resume hear settings archive now s <;> rfl

/-- The learner has the say only where the rules find nothing. -/
theorem normal_of_outlier {hear : Listener σ} {steps : List DetectorStep} {r : RuleDetector}
    {ls : Learner × σ} {i : Nat} {after : Detector × σ}
    (h : (transcript (answer hear) steps (beside r ls))[i]? =
      some (.verdict (.anomaly .outlier), after)) :
    ∃ r', (transcript RuleDetector.answer steps r)[i]? = some (.verdict .normal, r') := by
  rw [transcript_join (answer_hybrid hear), List.getElem?_zipWith_eq_some] at h
  obtain ⟨⟨first, r'⟩, second, hfirst, -, hjoin⟩ := h
  have hrules : ∀ x ∈ transcript RuleDetector.answer steps r, x.1 ≠ .verdict (.anomaly .outlier) :=
    forall_transcript (· ≠ _) RuleDetector.answer_ne_outlier steps r
  rcases Answer.join_eq_anomaly (congrArg Prod.fst hjoin) with rfl | houtlier
  · exact ⟨r', hfirst⟩
  · exact absurd houtlier (hrules _ (List.mem_of_getElem? hfirst))

/-- **A hybrid is the product of its parts.** Settings for a hybrid give rules that have seen nothing
and the learner that the files allow.  In every run, every answer and everything that is kept after
every step is that of the rules alone and that of the learner alone: the verdict is that of the rules
if it is an anomaly, and otherwise that of the learner, who gives his reason only where the rules find
nothing. -/
theorem hybrid_answers (hear : Listener σ) (settings : Deployment) (hmode : settings.mode = .hybrid)
    (archive : Archive) (now : Instant) (s : σ) :
    ofSettings hear settings archive now s =
        (Learner.resume hear settings archive now s).map (beside (.start settings.toSettings now)) ∧
      ∀ (steps : List DetectorStep) (r : RuleDetector) (ls : Learner × σ),
        transcript (answer hear) steps (beside r ls) =
            List.zipWith (fun first second => (first.1.join second.1, beside first.2 second.2))
              (transcript RuleDetector.answer steps r) (transcript (Learner.answer hear) steps ls) ∧
          ∀ (i : Nat) (after : Detector × σ),
            (transcript (answer hear) steps (beside r ls))[i]? =
                some (.verdict (.anomaly .outlier), after) →
              ∃ r', (transcript RuleDetector.answer steps r)[i]? = some (.verdict .normal, r') :=
  ⟨ofSettings_hybrid hear settings hmode archive now s, fun steps r ls =>
    ⟨transcript_join (answer_hybrid hear) steps r ls, fun _ _ h => normal_of_outlier h⟩⟩

/-- The rules find something in the first event, which is the one that the learner waits for; in the
second one only the learner finds something. -/
theorem hybrid_answers_spike :
    let settings : Deployment :=
      { Deployment.plain with
        mode := .hybrid, baselineSize := 1, baselineCap := 1, serverErrorThreshold := 0 }
    let steps : List DetectorStep :=
      [.observe ⟨⟨some "alice", 1.0, 503, false, false, "GET", "/", 3.0⟩, 0⟩,
        .observe ⟨⟨some "bob", 9.0, 200, false, false, "GET", "/", 3.0⟩, 1⟩]
    ∃ start, ofSettings Learner.unheard settings ⟨none, .empty⟩ 0 () = .ok start ∧
      (transcript (answer Learner.unheard) steps start).map
          (fun x => (x.1.verdict?, x.2.1.learner?.map fun l => l.status.version)) =
        [(some (.anomaly .serverErrorSpike), some 1), (some (.anomaly .outlier), some 1)] := by
  intro settings steps
  obtain ⟨hmade, hanswers⟩ := hybrid_answers Learner.unheard settings rfl ⟨none, .empty⟩ 0 ()
  have hrun : (Learner.resume Learner.unheard settings ⟨none, .empty⟩ 0 ()).toOption.any
      (fun ls => decide ((List.zipWith
        (fun (first : Answer × RuleDetector) (second : Answer × Learner × Unit) =>
          ((first.1.join second.1).verdict?, some second.2.1.status.version))
        (transcript RuleDetector.answer steps (.start settings.toSettings 0))
        (transcript (Learner.answer Learner.unheard) steps ls)) =
          [(some (.anomaly .serverErrorSpike), some 1), (some (.anomaly .outlier), some 1)])) =
      true := by
    decide +kernel
  obtain ⟨ls, hresume, hrun⟩ := exists_ok hrun
  refine ⟨beside (.start settings.toSettings 0) ls, by rw [hmade, hresume]; rfl, ?_⟩
  rw [(hanswers steps _ ls).1, List.map_zipWith]
  exact of_decide_eq_true hrun

end Detector

end TrafficWatch
