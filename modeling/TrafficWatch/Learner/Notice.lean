import TrafficWatch.Learner.Basic

/-!
# Learner — Notice

A listener that notes what came into force.  On demand it calls the learner back while it is being
told: it asks for a training and looks at the phase.  The training it asks for is always skipped, and
the phase is that of what it is told about.
-/

namespace TrafficWatch

/-- What a listener was told, and what it found when it called back. -/
structure Notice where
  kind : TrainingKind
  threshold : Float
  answer : Option (Outcome × Phase)

/-- A listener that notes everything; one that calls back does not do so for what comes from files,
since then the learner is not yet in use. -/
def Notice.listener (callsBack : Bool) (now : Instant) : Listener (List Notice) :=
  fun a l notices =>
    if callsBack && a.kind ≠ .restore then
      let (outcome, l, _) := l.retrain Learner.unheard now ()
      (l, notices ++ [⟨a.kind, a.threshold, some (outcome, l.phase)⟩])
    else (l, notices ++ [⟨a.kind, a.threshold, none⟩])

end TrafficWatch
