import TrafficWatch.Learner.Archive
import TrafficWatch.Rules.Detector

/-!
# Detector

The detectors that judge the traffic, as the mode asks: the rules, the learner, or both.  When both
are there, both see every event, so that neither falls behind, and the verdict of the rules goes first
(`Verdict.orElse`).
-/

namespace TrafficWatch

/-- The detectors that judge the traffic. -/
inductive Detector where
  | rules (rules : RuleDetector)
  | learner (learner : Learner)
  | hybrid (rules : RuleDetector) (learner : Learner)

/-- The first verdict if it is an anomaly, and otherwise the second. -/
def Verdict.orElse (first second : Verdict) : Verdict :=
  if first.isAnomaly then first else second

namespace Detector

/-- The rules, if they judge. -/
def rules? : Detector → Option RuleDetector
  | rules r | hybrid r _ => some r
  | learner _ => none

/-- The learner, if it judges. -/
def learner? : Detector → Option Learner
  | learner l | hybrid _ l => some l
  | rules _ => none

/-- The mode in which the traffic is judged. -/
def mode : Detector → Mode
  | rules _ => .rules
  | learner _ => .model
  | hybrid _ _ => .hybrid

/-- The name of the detectors. -/
def name (d : Detector) : String :=
  d.mode.name

/-- The detectors in one line. -/
def describe (d : Detector) : String :=
  "DetectorSet \x7b detector: \"" ++ d.name ++ "\", rules: " ++ toString d.rules?.isSome ++
    ", ml: " ++ toString d.learner?.isSome ++ " \x7d"

/-- The detectors after a sweep of idle windows, and the number of windows dropped. -/
def evictIdle (now : Instant) : Detector → Nat × Detector
  | rules r =>
    let (n, r) := r.evictIdle now
    (n, rules r)
  | hybrid r l =>
    let (n, r) := r.evictIdle now
    (n, hybrid r l)
  | learner l => (0, learner l)

section Listening

variable {σ : Type}

/-- The verdict on an event, and the detectors after it. -/
def observe (hear : Listener σ) (e : Event) (now : Instant) : Detector → σ → Verdict × Detector × σ
  | rules r, s =>
    let (v, r) := r.observe e now
    (v, rules r, s)
  | learner l, s =>
    let (v, l, s) := l.observe hear e now s
    (v, learner l, s)
  | hybrid r l, s =>
    let (first, r) := r.observe e now
    let (second, l, s) := l.observe hear e now s
    (first.orElse second, hybrid r l, s)

/-- A training after the first, if there is a learner. -/
def retrain? (hear : Listener σ) (now : Instant) : Detector → σ → Option (Outcome × Detector × σ)
  | rules _, _ => none
  | learner l, s =>
    let (outcome, l, s) := l.retrain hear now s
    some (outcome, learner l, s)
  | hybrid r l, s =>
    let (outcome, l, s) := l.retrain hear now s
    some (outcome, hybrid r l, s)

/-- The detectors of a mode; a learner goes on where the archive ends. -/
def ofMode (hear : Listener σ) (mode : Mode) (settings : Deployment) (archive : Archive)
    (now : Instant) (s : σ) : Except Failure (Detector × σ) :=
  match mode with
  | .rules => .ok (rules (.start settings.toSettings now), s)
  | .model => do
    let (l, s) ← Learner.resume hear settings archive now s
    return (learner l, s)
  | .hybrid => do
    let (l, s) ← Learner.resume hear settings archive now s
    return (hybrid (.start settings.toSettings now) l, s)

/-- The detectors that settings ask for, if the settings can be run. -/
def ofSettings (hear : Listener σ) (settings : Deployment) (archive : Archive) (now : Instant) (s : σ) :
    Except Failure (Detector × σ) :=
  match settings.flaw? with
  | some flaw => .error (.settings flaw)
  | none => ofMode hear settings.mode settings archive now s

end Listening

end Detector

end TrafficWatch
