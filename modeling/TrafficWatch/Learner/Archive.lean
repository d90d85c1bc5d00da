import TrafficWatch.Files.ModelStore
import TrafficWatch.Learner.Basic

/-!
# Learner — Archive

What is learned outlives the process when there is a place to keep it.  An `Archive` is a listener that
writes what comes into force to files; a write that fails is passed over, for detection goes on without
files.  `Learner.resume` starts a learner from what the files hold, and with a warm-up when they hold
nothing that can be used.
-/

namespace TrafficWatch

/-- Where what comes into force is kept, if anywhere, and the files there are. -/
structure Archive where
  paths : Option ModelPaths
  files : FileTree

namespace Archive

/-- What the files hold. -/
def held (a : Archive) : Except Failure (Option Calibration) :=
  match a.paths with
  | none => .ok none
  | some paths => paths.load (paths.look a.files)

/-- The archive after an attempt to keep what was found. -/
def keep (a : Archive) (c : Calibration) : Archive :=
  match a.paths with
  | none => a
  | some paths => { a with files := (a.files.keep paths c).2 }

/-- The archive keeps what comes into force, unless it comes from the files. -/
def listener : Listener Archive := fun a l archive =>
  (l, if a.kind = .restore then archive else archive.keep a.calibration)

end Archive

/-- Two listeners, of which the first one hears first. -/
def Listener.both {σ τ : Type} (first : Listener σ) (second : Listener τ) : Listener (σ × τ) :=
  fun a l (s, t) =>
    let (l, s) := first a l s
    let (l, t) := second a l t
    (l, s, t)

/-- A learner that goes on where the files of an archive end. -/
def Learner.resume {σ : Type} (hear : Listener σ) (s : Deployment) (archive : Archive) (now : Instant)
    (state : σ) : Except Failure (Learner × σ) := do
  let l ← Learner.start s
  match archive.held with
  | .ok (some c) => return l.restore hear c now state
  | _ => return (l, state)

end TrafficWatch
