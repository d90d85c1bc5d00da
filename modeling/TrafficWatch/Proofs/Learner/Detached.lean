import TrafficWatch.Learner.Archive
import TrafficWatch.Learner.Notice
import TrafficWatch.Metrics.Basic
import TrafficWatch.Proofs.Learner.Calibration
import TrafficWatch.Proofs.Learner.Training
import TrafficWatch.Proofs.Transcript

/-!
# Learner — Detached

Once a learner has started, files have no part in what it does.  While it keeps what it learns, others
may change the files in any way, between the steps of a save and between saves, and may keep any step
from happening (`Meddling`).  A learner with files shadows one without: it differs from it in the
places of the files and in nothing else (`Learner.Shadows`), for an archive only listens.  So the two
show the same in every run (`Learner.files_do_not_matter`).

Others may listen too, as long as they take no notice of the places of the files
(`Listener.IgnoresPaths`).
-/

namespace TrafficWatch

variable {σ τ : Type}

/-! ### Files that others change -/

/-- What others do to the files.  Before each step of a save they leave other files there, and they may
keep the step from happening; steps are counted over all saves. -/
structure Meddling where
  leave : Nat → FileTree → FileTree
  thwarts : Nat → Bool

/-- Nobody does anything. -/
def Meddling.none : Meddling :=
  ⟨fun _ t => t, fun _ => false⟩

/-- The steps taken so far and the files after as many of the steps as succeed, and whether all did. -/
def FileTree.performAmid (others : Meddling) : List FileStep → Nat × FileTree → Bool × Nat × FileTree
  | [], (count, t) => (true, count, t)
  | step :: rest, (count, t) =>
    let t := others.leave count t
    match if others.thwarts count then .none else t.perform? step with
    | some t => performAmid others rest (count + 1, t)
    | .none => (false, count + 1, t)

theorem FileTree.performAmid_none (steps : List FileStep) (count : Nat) (t : FileTree) :
    (performAmid .none steps (count, t)).1 = (t.performAll steps).1 ∧
      (performAmid .none steps (count, t)).2.2 = (t.performAll steps).2 := by
  induction steps generalizing count t with
  | nil => exact ⟨rfl, rfl⟩
  | cons step rest ih =>
      rw [performAll]
      cases hstep : t.perform? step with
      | none => simp [performAmid, Meddling.none, hstep]
      | some t₁ => simpa [performAmid, Meddling.none, hstep] using ih (count + 1) t₁

namespace Archive

/-- The archive after an attempt to keep what was found, while others are at the files. -/
def keepAmid (others : Meddling) (c : Calibration) : Archive × Nat → Archive × Nat
  | (a, count) =>
    match a.paths with
    | none => (a, count)
    | some paths =>
      let (_, count, files) := FileTree.performAmid others (c.steps paths) (count, a.files)
      ({ a with files }, count)

/-- The archive as a listener, while others are at the files. -/
def amid (others : Meddling) : Listener (Archive × Nat) := fun a l archive =>
  (l, if a.kind = .restore then archive else keepAmid others a.calibration archive)

/-- With nobody else at the files, it is the archive. -/
theorem amid_none (a : Activation) (l : Learner) (archive : Archive) (count : Nat) :
    (amid .none a l (archive, count)).1 = (listener a l archive).1 ∧
      (amid .none a l (archive, count)).2.1 = (listener a l archive).2 := by
  refine ⟨rfl, ?_⟩
  unfold amid listener
  split
  · rfl
  · obtain ⟨paths?, files⟩ := archive
    cases paths? with
    | none => rfl
    | some paths =>
      have hfiles := (FileTree.performAmid_none (a.calibration.steps paths) count files).2
      exact congrArg (Archive.mk (some paths)) hfiles

end Archive

/-! ### Places of files -/

/-- The learner with other places for what it learns. -/
def Learner.keptAt (paths : Option ModelPaths) (l : Learner) : Learner :=
  { l with settings := { l.settings with paths } }

/-- A listener that takes no notice of the places of the files, though it may call back. -/
def Listener.IgnoresPaths (hear : Listener τ) : Prop :=
  ∀ paths a l t, hear a (l.keptAt paths) t = ((hear a l t).1.keptAt paths, (hear a l t).2)

namespace Learner

/-- A learner differs from another one in its places, and what its listener keeps comes down to what
the other one's keeps. -/
structure Shadows (paths : Option ModelPaths) (heard : σ → τ) (x : Learner × σ) (y : Learner × τ) :
    Prop where
  learner : x.1 = y.1.keptAt paths
  heard : heard x.2 = y.2

end Learner

/-- A listener does what another one does, apart from places. -/
def Listener.Mirrors (first : Listener σ) (second : Listener τ) (paths : Option ModelPaths)
    (heard : σ → τ) : Prop :=
  ∀ a l s, Learner.Shadows paths heard (first a (l.keptAt paths) s) (second a l (heard s))

theorem Listener.IgnoresPaths.mirrors {hear : Listener τ} (h : hear.IgnoresPaths)
    (paths : Option ModelPaths) : hear.Mirrors hear paths id := by
  intro a l t
  rw [h paths a l t]
  exact ⟨rfl, rfl⟩

/-- An archive makes no difference to another listener. -/
theorem Archive.mirrors_amid {hear : Listener τ} (h : hear.IgnoresPaths) (others : Meddling)
    (paths : Option ModelPaths) :
    ((amid others).both hear).Mirrors hear paths Prod.snd :=
  fun a l s => ⟨(h.mirrors paths a l s.2).learner, (h.mirrors paths a l s.2).heard⟩

namespace Learner

variable {first : Listener σ} {second : Listener τ} {paths : Option ModelPaths} {heard : σ → τ}

theorem firstTraining_keptAt (paths : Option ModelPaths) (l : Learner) (now : Instant) :
    firstTraining (l.keptAt paths) now =
      ((firstTraining l now).1, (firstTraining l now).2.keptAt paths) := by
  have hcalibrate : (l.keptAt paths).settings.calibrate (l.keptAt paths).buffer.features =
      l.settings.calibrate l.buffer.features := rfl
  unfold firstTraining
  simp only [hcalibrate]
  cases l.settings.calibrate l.buffer.features with
  | ok c => rfl
  | error fault => rfl

theorem train_keptAt (paths : Option ModelPaths) (l : Learner) (now : Instant) :
    train (l.keptAt paths) now =
      ((train l now).1, (train l now).2.1, (train l now).2.2.keptAt paths) := by
  have hcurrent : (l.keptAt paths).cell.current = l.cell.current := rfl
  unfold train
  rw [hcurrent]
  cases l.cell.current with
  | none => rfl
  | some active =>
      have hlater : laterTraining ((l.keptAt paths).forget now).settings active
            ((l.keptAt paths).forget now).buffer.features =
          laterTraining (l.forget now).settings active (l.forget now).buffer.features := rfl
      simp only [hlater]
      cases laterTraining (l.forget now).settings active (l.forget now).buffer.features with
      | error reason => rfl
      | ok c => cases c <;> rfl

theorem Shadows.conclude (h : first.Mirrors second paths heard) (a : Option Activation) (l : Learner)
    (s : σ) :
    Shadows paths heard (conclude first a (l.keptAt paths) s) (conclude second a l (heard s)) := by
  cases a with
  | none => exact ⟨rfl, rfl⟩
  | some a =>
      obtain ⟨hlearner, hheard⟩ := h a l s
      refine ⟨?_, hheard⟩
      simp only [Learner.conclude, hlearner]
      rfl

theorem Shadows.trainFirst (h : first.Mirrors second paths heard) (now : Instant) (l : Learner)
    (s : σ) :
    Shadows paths heard (trainFirst first now (l.keptAt paths) s)
      (trainFirst second now l (heard s)) := by
  -- whether there is a training does not depend on places
  change Shadows paths heard
    (if l.isTraining || l.isTrained || l.buffer.size < l.settings.baselineSize then
      (l.keptAt paths, s)
    else Learner.conclude first (firstTraining (l.busy.keptAt paths) now).1
      (firstTraining (l.busy.keptAt paths) now).2 s)
    (if l.isTraining || l.isTrained || l.buffer.size < l.settings.baselineSize then (l, heard s)
    else Learner.conclude second (firstTraining l.busy now).1 (firstTraining l.busy now).2 (heard s))
  split
  · exact ⟨rfl, rfl⟩
  · rw [firstTraining_keptAt]
    exact .conclude h _ _ s

/-- **An event** is judged alike with and without files. -/
theorem Shadows.observe (h : first.Mirrors second paths heard) (e : Event) (now : Instant)
    (l : Learner) (s : σ) :
    ((l.keptAt paths).observe first e now s).1 = (l.observe second e now (heard s)).1 ∧
      Shadows paths heard ((l.keptAt paths).observe first e now s).2
        (l.observe second e now (heard s)).2 := by
  have hretain : (l.keptAt paths).retain e now = (l.retain e now).keptAt paths := by
    unfold retain
    split <;> rfl
  cases hcurrent : l.cell.current with
  | some active =>
      rw [observe_of_current first (l := l.keptAt paths) hcurrent,
        observe_of_current second hcurrent, hretain]
      exact ⟨rfl, rfl, rfl⟩
  | none =>
      rw [observe_of_none first (l := l.keptAt paths) hcurrent, observe_of_none second hcurrent,
        hretain]
      refine ⟨rfl, ?_⟩
      change Shadows paths heard
        (if e.isClean && l.settings.baselineSize ≤ (l.retain e now).buffer.size then
          Learner.trainFirst first now ((l.retain e now).keptAt paths) s
        else ((l.retain e now).keptAt paths, s)) _
      split
      · exact .trainFirst h now _ s
      · exact ⟨rfl, rfl⟩

/-- **A training** comes out alike with and without files. -/
theorem Shadows.retrain (h : first.Mirrors second paths heard) (now : Instant) (l : Learner) (s : σ) :
    ((l.keptAt paths).retrain first now s).1 = (l.retrain second now (heard s)).1 ∧
      Shadows paths heard ((l.keptAt paths).retrain first now s).2
        (l.retrain second now (heard s)).2 := by
  cases hbusy : l.isTraining with
  | true =>
      have hskipped {ρ : Type} (hear : Listener ρ) {l : Learner} (hl : l.isTraining = true) (s : ρ) :
          l.retrain hear now s = (.skipped .inProgress, l, s) := by
        rw [Learner.retrain, if_pos hl]
      rw [hskipped first (l := l.keptAt paths) hbusy, hskipped second hbusy]
      exact ⟨rfl, rfl, rfl⟩
  | false =>
      rw [retrain_of_idle first (l := l.keptAt paths) hbusy, retrain_of_idle second hbusy]
      have htrain : train (l.keptAt paths).busy now = _ := train_keptAt paths l.busy now
      rw [htrain]
      exact ⟨rfl, .conclude h _ _ s⟩

theorem Shadows.answer (h : first.Mirrors second paths heard) (step : DetectorStep)
    {x : Learner × σ} {y : Learner × τ} (hxy : Shadows paths heard x y) :
    (answer first step x).1 = (answer second step y).1 ∧
      Shadows paths heard (answer first step x).2 (answer second step y).2 := by
  obtain ⟨l, s⟩ := x
  obtain ⟨l', t⟩ := y
  obtain ⟨hl, hs⟩ := hxy
  obtain rfl : l = l'.keptAt paths := hl
  obtain rfl : heard s = t := hs
  cases step with
  | observe o =>
      obtain ⟨hverdict, hafter⟩ := Shadows.observe h o.event o.time l' s
      exact ⟨congrArg Answer.verdict hverdict, hafter⟩
  | retrain now =>
      obtain ⟨houtcome, hafter⟩ := Shadows.retrain h now l' s
      exact ⟨congrArg (Answer.outcome ∘ some) houtcome, hafter⟩
  | evictIdle now => exact ⟨rfl, rfl, rfl⟩

/-- What can be seen after a step: the answer, how the learner stands, and what was heard. -/
def seen (heard : σ → τ) (x : Answer × Learner × σ) : Answer × LearnerStatus × τ :=
  (x.1, x.2.1.status, heard x.2.2)

/-- A learner that shadows another one can be seen to do the same, in every run. -/
theorem Shadows.seen_transcript (h : first.Mirrors second paths heard) (steps : List DetectorStep)
    {x : Learner × σ} {y : Learner × τ} (hxy : Shadows paths heard x y) :
    (transcript (Learner.answer first) steps x).map (seen heard) =
      (transcript (Learner.answer second) steps y).map (seen id) := by
  refine transcript_related (fun step x y hxy => ?_) steps hxy
  obtain ⟨hanswer, hafter⟩ := Shadows.answer h step hxy
  refine ⟨?_, hafter⟩
  -- how a learner stands does not show where it keeps what it learns
  have hstatus : (Learner.answer first step x).2.1.status =
      (Learner.answer second step y).2.1.status := by
    rw [hafter.learner]
    rfl
  rw [seen, seen, hanswer, hstatus, hafter.heard]
  rfl

end Learner

/-! ### Listeners -/

theorem Learner.ignoresPaths_unheard : unheard.IgnoresPaths := fun _ _ _ _ => rfl

theorem Metrics.ignoresPaths_listener : Metrics.listener.IgnoresPaths := fun _ _ _ _ => rfl

theorem Listener.IgnoresPaths.both {first : Listener σ} {second : Listener τ}
    (hfirst : first.IgnoresPaths) (hsecond : second.IgnoresPaths) :
    (first.both second).IgnoresPaths := by
  intro paths a l s
  simp only [Listener.both, hfirst paths a l s.1, hsecond paths a _ s.2]

/-- A listener that makes requests ignores places if what it asks and what it keeps do. -/
theorem Listener.ignoresPaths_of_requests {hear : Listener τ}
    {asks : Activation → Learner → τ → List Request}
    (hasks : ∀ paths a l t, asks a (l.keptAt paths) t = asks a l t)
    (hserves : ∀ a l t, (hear a l t).1 = (Learner.serveAll Learner.unheard (asks a l t) l ()).1)
    (hkeeps : ∀ paths a l t, (hear a (l.keptAt paths) t).2 = (hear a l t).2) :
    hear.IgnoresPaths := by
  have hserve (paths : Option ModelPaths) (requests : List Request) (l : Learner) :
      (Learner.serveAll Learner.unheard requests (l.keptAt paths) ()).1 =
        (Learner.serveAll Learner.unheard requests l ()).1.keptAt paths := by
    have h := Learner.ignoresPaths_unheard.mirrors paths
    induction requests generalizing l with
    | nil => rfl
    | cons r rest ih =>
        have hone : (Learner.serve Learner.unheard r (l.keptAt paths) ()).1 =
            (Learner.serve Learner.unheard r l ()).1.keptAt paths := by
          cases r with
          | observe e now => exact (Learner.Shadows.observe h e now l ()).2.learner
          | retrain now => exact (Learner.Shadows.retrain h now l ()).2.learner
        rw [Learner.serveAll, Learner.serveAll, hone]
        exact ih _
  intro paths a l t
  refine Prod.ext ?_ (hkeeps paths a l t)
  rw [hserves, hserves, hasks, hserve]

/-- To call back is to request a training, whose outcome is the same wherever anything is kept. -/
theorem Notice.ignoresPaths_listener (callsBack : Bool) (now : Instant) :
    (Notice.listener callsBack now).IgnoresPaths := by
  intro paths a l notices
  have h := Learner.Shadows.retrain (Learner.ignoresPaths_unheard.mirrors paths) now l ()
  unfold Notice.listener
  split
  · simp only [h.1, h.2.learner]
    rfl
  · rfl

namespace Learner

/-- **Files do not matter** to a learner that has started.  Let a learner keep what it learns in files
which others change in any way, between the steps of a save and between saves, and any steps of which
fail.  In every run it answers, stands and is heard of like the same learner without files. -/
theorem files_do_not_matter {hear : Listener τ} (hignores : hear.IgnoresPaths) (l : Learner) (t : τ)
    (paths : ModelPaths) (files : FileTree) (count : Nat) (others : Meddling)
    (steps : List DetectorStep) :
    (transcript (answer ((Archive.amid others).both hear)) steps
        (l.keptAt (some paths), (⟨some paths, files⟩, count), t)).map (seen Prod.snd) =
      (transcript (answer hear) steps (l.keptAt none, t)).map (seen id) := by
  have hmirrors := Archive.mirrors_amid hignores others (some paths)
  exact Shadows.seen_transcript hmirrors steps ⟨rfl, rfl⟩

/-- Nothing is ever kept, since a directory comes to stand in the way of the threshold; but the rate is
learned, learned again and found too high, and all this is heard of. -/
theorem files_do_not_matter_blocked :
    let l : Learner :=
      ⟨{ Deployment.plain with baselineSize := 1, minSamples := 1 }, .empty, .empty 2, false⟩
    let others : Meddling := ⟨fun n t => if n = 1 then ⟨[(["t"], .directory)]⟩ else t, (· == 2)⟩
    let event (rate : Float) : Event := ⟨none, rate, 200, false, false, "GET", "/", 3.0⟩
    let steps : List DetectorStep :=
      [.observe ⟨event 1.0, 0⟩, .retrain 1, .observe ⟨event 9.0, 2⟩]
    let kept := transcript (answer ((Archive.amid others).both (Notice.listener true 1))) steps
      (l.keptAt (some ⟨"m", "t", "f"⟩), (⟨some ⟨"m", "t", "f"⟩, .empty⟩, 0), [])
    kept.map (seen Prod.snd) =
        (transcript (answer (Notice.listener true 1)) steps (l.keptAt none, [])).map (seen id) ∧
      kept.map (fun x => (x.1.verdict?, x.2.1.status.version, x.2.2.2.length)) =
        [(some .normal, 1, 1), (none, 2, 2), (some (.anomaly .outlier), 2, 2)] ∧
      kept.all (fun x => (x.2.2.1.1.files.read? (.parse "t")).isNone) = true := by
  intro l others event steps kept
  have hsame := files_do_not_matter (Notice.ignoresPaths_listener true 1) l [] ⟨"m", "t", "f"⟩
    .empty 0 others steps
  exact ⟨hsame, by decide +kernel, by decide +kernel⟩

end Learner

end TrafficWatch
