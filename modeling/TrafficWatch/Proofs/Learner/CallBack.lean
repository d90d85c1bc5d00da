import TrafficWatch.Proofs.Learner.Unchanged

/-!
# Learner — Call back

What becomes of calls that somebody makes who is being told of something.  Whoever listens may ask the
learner for a training and how it stands, as often as they like, and may make each call depend on the
answers to those before (`Dialogue`).  They are told while the training is still going on, so a
training that they ask for is refused before it looks at anything, and how the learner stands is what
they are being told of (`Call.IsLawful`).  Every request, whatever comes of it, ends with no training
going on; so a training that is asked for in between is never refused for that reason.

* `Dialogue.run_of_isTraining`: what a dialogue comes to while a training is going on;
* `Learner.tells_serve`: a request tells nobody of anything, or tells of one activation during a
  training, which is over with the request;
* `Learner.calls_lawful`: both together, for every run from the start.
-/

namespace TrafficWatch

variable {σ : Type}

/-! ### Dialogues -/

/-- What somebody does who has been told of something, with a state of their own. -/
inductive Dialogue (σ : Type) where
  /-- Nothing more. -/
  | done (own : σ)
  /-- They ask for a training; others may change their state before they have the answer. -/
  | retrain (now : Instant) (own : σ) (next : Outcome → σ → Dialogue σ)
  /-- They ask how the learner stands. -/
  | status (own : σ) (next : LearnerStatus → Dialogue σ)

/-- The state of their own with which somebody enters a dialogue. -/
def Dialogue.own : Dialogue σ → σ
  | done own | retrain _ own _ | status own _ => own

/-- A learner, the files, and what has come into force so far. -/
structure Scene where
  learner : Learner
  archive : Archive
  activations : List Activation

/-- What is answered to a call. -/
inductive Call.Reply where
  | outcome (outcome : Outcome)
  | status (status : LearnerStatus)

/-- A call that was made while something was told of. -/
structure Call where
  about : Activation
  before : Scene
  reply : Call.Reply
  after : Scene

/-- The files, what has come into force so far, the calls that were made, and the state of whoever makes
them. -/
structure Circle (σ : Type) where
  archive : Archive
  activations : List Activation
  calls : List Call
  own : σ

namespace Circle

/-- The circle together with a learner, as far as a call could change them. -/
def scene (c : Circle σ) (l : Learner) : Scene :=
  ⟨l, c.archive, c.activations⟩

/-- The circle after a call. -/
def note (c : Circle σ) (call : Call) : Circle σ :=
  { c with calls := c.calls ++ [call] }

end Circle

/-- The calls of a dialogue, one after the other; `inner` hears of what they bring into force. -/
def Dialogue.run (inner : Listener (Circle σ)) (a : Activation) :
    Dialogue σ → Learner → Circle σ → Learner × Circle σ
  | done own, l, c => (l, { c with own })
  | retrain now own next, l, c =>
    let before := { c with own }
    let (outcome, l', after) := l.retrain inner now before
    run inner a (next outcome after.own) l'
      (after.note ⟨a, before.scene l, .outcome outcome, after.scene l'⟩)
  | status own next, l, c =>
    let c := { c with own }
    run inner a (next l.status) l (c.note ⟨a, c.scene l, .status l.status, c.scene l⟩)

/-- The files are written first, and then somebody is told who may call back.  Nobody can when
something was read from files, since the learner is not yet in use. -/
def Circle.listener (react : Activation → σ → Dialogue σ) (inner : Listener (Circle σ)) :
    Listener (Circle σ) := fun a l c =>
  let (l, archive) := Archive.listener a l c.archive
  let c := { c with archive, activations := c.activations ++ [a] }
  if a.kind = .restore then (l, { c with own := (react a c.own).own })
  else (react a c.own).run inner a l c

/-! ### Calls -/

/-- The phase in which something comes into force. -/
def Calibration.phase (c : Calibration) : Phase :=
  if c.isByRate then .fallback else .model

/-- **A call as it has to be.** -/
structure Call.IsLawful (call : Call) : Prop where
  /-- It was made during a training. -/
  busy : call.before.learner.isTraining = true
  /-- What it was about had come into force last, and in a training. -/
  last : call.before.activations.getLast? = some call.about
  trained : call.about.kind ≠ .restore
  /-- Nothing has changed: not the learner, with what it remembers and what is in force, not the files,
  and nobody has been told of anything. -/
  unchanged : call.after = call.before
  /-- A training was refused because one is going on. -/
  refused : ∀ outcome, call.reply = .outcome outcome → outcome = .skipped .inProgress
  /-- The learner stands as it has just been told. -/
  told : ∀ status, call.reply = .status status → status.phase = call.about.calibration.phase ∧
    status.threshold = some call.about.threshold ∧
      status.version = call.before.activations.length

/-- A call that is made while a training is going on and something is told of. -/
inductive Call.Within (a : Activation) (l : Learner) (archive : Archive)
    (activations : List Activation) : Call → Prop where
  | retrain : Within a l archive activations
      ⟨a, ⟨l, archive, activations⟩, .outcome (.skipped .inProgress), ⟨l, archive, activations⟩⟩
  | status : Within a l archive activations
      ⟨a, ⟨l, archive, activations⟩, .status l.status, ⟨l, archive, activations⟩⟩

/-- **A dialogue during a training** leaves the learner, the files and what has come into force as they
are. -/
theorem Dialogue.run_of_isTraining (inner : Listener (Circle σ)) (a : Activation) {l : Learner}
    (hl : l.isTraining = true) (d : Dialogue σ) (c : Circle σ) :
    ∃ own calls, d.run inner a l c = (l, ⟨c.archive, c.activations, c.calls ++ calls, own⟩) ∧
      ∀ call ∈ calls, call.Within a l c.archive c.activations := by
  induction d generalizing c with
  | done own =>
      refine ⟨own, [], ?_, fun call hcall => absurd hcall List.not_mem_nil⟩
      rw [run, List.append_nil]
  | retrain now own next ih =>
      have hrefused : l.retrain inner now { c with own } = (.skipped .inProgress, l, { c with own }) :=
        if_pos hl
      obtain ⟨own', calls, hrun, hcalls⟩ := ih (.skipped .inProgress) own
        (Circle.note { c with own }
          ⟨a, Circle.scene { c with own } l, .outcome (.skipped .inProgress),
            Circle.scene { c with own } l⟩)
      refine ⟨own', _ :: calls, ?_, List.forall_mem_cons.mpr ⟨.retrain, hcalls⟩⟩
      rw [run, hrefused]
      refine hrun.trans ?_
      simp only [Circle.note, Circle.scene, List.append_assoc, List.singleton_append]
  | status own next ih =>
      obtain ⟨own', calls, hrun, hcalls⟩ := ih l.status
        (Circle.note { c with own }
          ⟨a, Circle.scene { c with own } l, .status l.status, Circle.scene { c with own } l⟩)
      refine ⟨own', _ :: calls, ?_, List.forall_mem_cons.mpr ⟨.status, hcalls⟩⟩
      rw [run]
      refine hrun.trans ?_
      simp only [Circle.note, Circle.scene, List.append_assoc, List.singleton_append]

/-! ### Requests -/

namespace Learner

/-- Whom a request tells of what. -/
inductive Tells (hear : Listener σ) (l : Learner) (s : σ) (after : Learner × σ) : Prop where
  /-- Nobody is told of anything, for nothing has come into force. -/
  | nothing (hcell : after.1.cell = l.cell) (hidle : after.1.isTraining = false) (hheard : after.2 = s)
  /-- The listener is told of what has come into force, and the training is over after that. -/
  | once (a : Activation) (told : Learner) (htrained : a.kind ≠ .restore)
      (hbusy : told.isTraining = true) (hcell : ∃ poolSize samples now,
        told.cell = l.cell.swap (.ofCalibration poolSize samples now a.calibration))
      (hafter : after = conclude hear (some a) told s)

variable {l : Learner} {hear : Listener σ}

/-- What a request brings does not come from files. -/
theorem kind_ne_restore_of_brought {r : Request} {a : Activation} (h : l.brought? r = some a) :
    a.kind ≠ .restore := by
  cases r with
  | observe e now =>
      obtain ⟨-, -, hkind, -⟩ := brought?_observe h
      rw [hkind]
      nofun
  | retrain now =>
      obtain ⟨-, -, hkind, -⟩ := brought?_retrain h
      rw [hkind]
      cases a.calibration <;> nofun

/-- **A request tells of one thing at most**, during a training that is over with the request. -/
theorem tells_serve (hear : Listener σ) (hidle : l.isTraining = false) (r : Request) (s : σ) :
    Tells hear l s (serve hear r l s) := by
  cases hbrought : l.brought? r with
  | none =>
      have hnoted := Alike.noted l r
      rw [serve_of_unbrought hear hidle hbrought]
      exact .nothing hnoted.cell (hnoted.training.trans hidle) rfl
  | some a =>
      rw [serve_of_brought hear hidle hbrought]
      exact .once a _ (kind_ne_restore_of_brought hbrought) rfl
        ⟨_, _, _, cell_activate_noted l r _ _ _⟩ rfl

/-- How a learner stands into which something has just come into force. -/
theorem status_of_swap {told : Learner} {cell : ActiveCell} {poolSize samples : Nat} {now : Instant}
    {c : Calibration} (h : told.cell = cell.swap (.ofCalibration poolSize samples now c)) :
    told.status.phase = c.phase ∧ told.status.threshold = some c.threshold ∧
      told.status.version = cell.versions + 1 := by
  obtain ⟨active, hswap, hversion, hfound⟩ := cell.swap_spec poolSize samples now c
  have hcurrent : told.cell.current = some active := by rw [h, hswap]
  refine ⟨?_, ?_, ?_⟩
  · change told.phase = _
    rw [phase_of_current hcurrent, ← Active.isByRate_calibration, hfound]
    rfl
  · rw [status, hcurrent, ← hfound, Active.threshold_calibration]
    rfl
  · rw [status, hcurrent]
    exact hversion

/-! ### Runs -/

/-- **Between requests** no training is going on, the version tells how much has come into force, and
all calls were as they have to be. -/
structure Rests (l : Learner) (c : Circle σ) : Prop where
  idle : l.isTraining = false
  versions : l.cell.versions = c.activations.length
  calls : ∀ call ∈ c.calls, call.IsLawful

variable {c : Circle σ} {react : Activation → σ → Dialogue σ} {inner : Listener (Circle σ)}

/-- **What a listener does that is told during a training**: it writes files and makes calls. -/
theorem listener_spec (react : Activation → σ → Dialogue σ) (inner : Listener (Circle σ))
    {a : Activation} {told : Learner} (htrained : a.kind ≠ .restore)
    (hbusy : told.isTraining = true) (c : Circle σ) :
    ∃ archive own calls, Circle.listener react inner a told c =
        (told, ⟨archive, c.activations ++ [a], c.calls ++ calls, own⟩) ∧
      ∀ call ∈ calls, call.Within a told archive (c.activations ++ [a]) := by
  obtain ⟨own, calls, hrun, hcalls⟩ := Dialogue.run_of_isTraining inner a hbusy (react a c.own)
    { c with archive := (Archive.listener a told c.archive).2, activations := c.activations ++ [a] }
  refine ⟨_, own, calls, ?_, hcalls⟩
  rw [← hrun]
  exact if_neg htrained

/-- A call about what has come into force last is as it has to be. -/
theorem isLawful_of_within {a : Activation} {told : Learner} {archive : Archive}
    {activations : List Activation} (htrained : a.kind ≠ .restore) (hbusy : told.isTraining = true)
    (hversions : l.cell.versions = activations.length)
    (hcell : ∃ poolSize samples now,
      told.cell = l.cell.swap (.ofCalibration poolSize samples now a.calibration))
    {call : Call} (h : call.Within a told archive (activations ++ [a])) : call.IsLawful := by
  obtain ⟨poolSize, samples, now, hcell⟩ := hcell
  obtain ⟨hphase, hthreshold, hversion⟩ := status_of_swap hcell
  have hlength : (activations ++ [a]).length = l.cell.versions + 1 := by
    rw [List.length_append, List.length_singleton, hversions]
  cases h with
  | retrain =>
      refine ⟨hbusy, List.getLast?_concat, htrained, rfl, fun outcome ho => ?_, nofun⟩
      cases ho
      rfl
  | status =>
      refine ⟨hbusy, List.getLast?_concat, htrained, rfl, nofun, fun status hs => ?_⟩
      cases hs
      exact ⟨hphase, hthreshold, hversion.trans hlength.symm⟩

/-- **A request.** -/
theorem Rests.serve (react : Activation → σ → Dialogue σ) (inner : Listener (Circle σ))
    (h : Rests l c) (r : Request) :
    Rests (serve (Circle.listener react inner) r l c).1
      (serve (Circle.listener react inner) r l c).2 := by
  cases tells_serve (Circle.listener react inner) h.idle r c with
  | nothing hcell hidle hheard =>
      rw [← hheard] at h
      exact ⟨hidle, hcell ▸ h.versions, h.calls⟩
  | once a told htrained hbusy hcell hafter =>
      obtain ⟨archive, own, calls, hlistener, hcalls⟩ :=
        listener_spec react inner htrained hbusy c
      rw [hafter, conclude]
      simp only [hlistener]
      obtain ⟨poolSize, samples, now, hswap⟩ := hcell
      refine ⟨rfl, ?_, fun call hcall => ?_⟩
      · change told.cell.versions = (c.activations ++ [a]).length
        rw [hswap, List.length_append, List.length_singleton, ← h.versions]
        rfl
      · rcases List.mem_append.mp hcall with hcall | hcall
        · exact h.calls call hcall
        · exact isLawful_of_within htrained hbusy h.versions ⟨_, _, _, hswap⟩ (hcalls call hcall)

theorem Rests.serveAll (react : Activation → σ → Dialogue σ) (inner : Listener (Circle σ))
    (requests : List Request) (h : Rests l c) :
    Rests (serveAll (Circle.listener react inner) requests l c).1
      (serveAll (Circle.listener react inner) requests l c).2 := by
  induction requests generalizing l c with
  | nil => exact h
  | cons r rest ih => exact ih (h.serve react inner r)

/-- A learner rests when it has started, with or without anything from files. -/
theorem rests_of_resume {settings : Deployment} {archive : Archive} {now : Instant} {own : σ}
    (h : resume (Circle.listener react inner) settings archive now ⟨archive, [], [], own⟩ =
      .ok (l, c)) : Rests l c := by
  obtain ⟨l₁, hstart, ⟨found, -, hrestore⟩ | ⟨-, rfl, rfl⟩⟩ := resume_eq_ok h
  · have hl₁ := start_spec hstart
    obtain ⟨rfl, rfl⟩ := Prod.mk.inj hrestore
    rw [hl₁]
    exact ⟨rfl, rfl, fun call hcall => absurd hcall List.not_mem_nil⟩
  · rw [start_spec hstart]
    exact ⟨rfl, rfl, fun call hcall => absurd hcall List.not_mem_nil⟩

/-- **Calls from inside a training come to nothing, and trainings do not get stuck.** Let a learner be
started over any files and serve any requests, and let whoever is told of anything call it back, as
often as they like and depending on what they are answered (`react`), whoever hears of what these calls
would bring into force (`inner`).  Then between requests no training is going on, and none that is asked
for is refused for that reason; and each call was as it has to be: a training was refused and changed
nothing, and how the learner stood was what had just been told. -/
theorem calls_lawful {settings : Deployment} {archive : Archive} {now : Instant} {own : σ}
    {l₀ : Learner} {c₀ : Circle σ}
    (hstart : resume (Circle.listener react inner) settings archive now ⟨archive, [], [], own⟩ =
      .ok (l₀, c₀))
    (requests : List Request)
    (hrun : serveAll (Circle.listener react inner) requests l₀ c₀ = (l, c)) :
    l.isTraining = false ∧
      (∀ now c, (l.retrain (Circle.listener react inner) now c).1 ≠ .skipped .inProgress) ∧
        ∀ call ∈ c.calls, call.IsLawful := by
  have hrests := (rests_of_resume hstart).serveAll react inner requests
  rw [hrun] at hrests
  exact ⟨hrests.idle, retrain_ne_inProgress _ hrests.idle, hrests.calls⟩

/-- Somebody who asks how the learner stands, asks for as many trainings as the version says, and asks
again how it stands, whenever they are told of anything. -/
def insistent : Activation → Nat → Dialogue Nat := fun _ count =>
  .status count fun status =>
    ask status.version (count + 1)
where
  ask : Nat → Nat → Dialogue Nat
    | 0, count => .status count fun _ => .done (count + 1)
    | n + 1, count => .retrain 2 count fun _ count => ask n (count + 1)

/-- A learner learns from one event and is then trained again: of the first activation there are three
calls, of the second four. -/
theorem calls_lawful_insistent :
    let settings : Deployment :=
      { Deployment.plain with
        baselineSize := 1, baselineCap := 1, minSamples := 1, paths := some (.inDirectory "state") }
    let event : Event := ⟨none, 5.0, 200, false, false, "GET", "/", 3.0⟩
    let hear := Circle.listener insistent (Circle.listener insistent fun _ l c => (l, c))
    ∃ l₀ c₀, resume hear settings ⟨settings.paths, .empty⟩ 0 ⟨⟨settings.paths, .empty⟩, [], [], 0⟩ =
        .ok (l₀, c₀) ∧
      let after := serveAll hear [.observe event 0, .retrain 1] l₀ c₀
      after.1.isTraining = false ∧ after.2.activations.length = 2 ∧ after.2.calls.length = 7 ∧
        after.2.own = 7 ∧ ∀ call ∈ after.2.calls, call.IsLawful := by
  intro settings event hear
  have hrun : (resume hear settings ⟨settings.paths, .empty⟩ 0
      ⟨⟨settings.paths, .empty⟩, [], [], 0⟩).toOption.any (fun start =>
        let after := serveAll hear [.observe event 0, .retrain 1] start.1 start.2
        after.2.activations.length == 2 && after.2.calls.length == 7 && after.2.own == 7) = true := by
    decide +kernel
  obtain ⟨⟨l₀, c₀⟩, hstart, hrun⟩ := exists_ok hrun
  obtain ⟨hrun, hown⟩ := Bool.and_eq_true_iff.mp hrun
  obtain ⟨hactivations, hcalls⟩ := Bool.and_eq_true_iff.mp hrun
  obtain ⟨hidle, -, hlawful⟩ := calls_lawful hstart [.observe event 0, .retrain 1] rfl
  exact ⟨l₀, c₀, hstart, hidle, eq_of_beq hactivations, eq_of_beq hcalls, eq_of_beq hown, hlawful⟩

end Learner

end TrafficWatch
