import TrafficWatch.Learner.Archive
import TrafficWatch.Learner.Notice
import TrafficWatch.Metrics.Basic
import TrafficWatch.Proofs.Learner.Cases

/-!
# Learner — Training

What a single request does to a learner.  Either what is in force stays as it is and nobody hears
anything, or one activation comes into force with the next version and the listener hears of it once
(`Learner.serve_spec`).  These are the two cases in which a request brings nothing or something
(`Learner.brought?`), and `Learner.Brings` says which activations that can be, and why.

This holds for every listener that is *quiet* (`Listener.IsQuiet`), as all those are that do nothing
but make requests of the learner (`Listener.isQuiet_of_requests`): while a training is going on,
these only have it remember events.
-/

namespace TrafficWatch

variable {σ τ : Type}

namespace Learner

/-! ### Requests during a training -/

/-- A learner that is like another one, except perhaps for what it remembers. -/
structure Alike (l l' : Learner) : Prop where
  settings : l'.settings = l.settings
  cell : l'.cell = l.cell
  training : l'.isTraining = l.isTraining
  capacity : l'.buffer.capacity = l.buffer.capacity
  size : 0 < l.buffer.capacity → l.buffer.size ≤ l.buffer.capacity →
    l'.buffer.size ≤ l.buffer.capacity

variable {l l₁ l₂ : Learner}

theorem Alike.refl (l : Learner) : l.Alike l :=
  ⟨rfl, rfl, rfl, rfl, fun _ h => h⟩

theorem Alike.trans (h₁ : l.Alike l₁) (h₂ : l₁.Alike l₂) : l.Alike l₂ where
  settings := h₂.settings.trans h₁.settings
  cell := h₂.cell.trans h₁.cell
  training := h₂.training.trans h₁.training
  capacity := h₂.capacity.trans h₁.capacity
  size := fun hpos hsize => by
    have h := h₂.size
    rw [h₁.capacity] at h
    exact h hpos (h₁.size hpos hsize)

theorem Alike.remember (l : Learner) (v : Features) (now : Instant) :
    l.Alike (l.remember v now) where
  settings := rfl
  cell := rfl
  training := rfl
  capacity := rfl
  size := fun hpos hsize => BaselineBuffer.size_push_le hsize hpos _

theorem Alike.forget (l : Learner) (now : Instant) : l.Alike (l.forget now) where
  settings := rfl
  cell := rfl
  training := rfl
  capacity := rfl
  size := fun _ hsize => Nat.le_trans (BaselineBuffer.size_prune_le _ _) hsize

theorem Alike.retain (l : Learner) (e : Event) (now : Instant) : l.Alike (l.retain e now) := by
  unfold Learner.retain
  split
  · exact .remember l _ _
  · exact .refl l

theorem Alike.noted (l : Learner) (r : Request) : l.Alike (l.noted r) := by
  cases r with
  | observe e now => exact .retain l e now
  | retrain now =>
      rw [Learner.noted]
      split
      · exact .forget l now
      · exact .refl l

/-- What a request brings takes the place of what was in force before it. -/
theorem cell_activate_noted (l : Learner) (r : Request) (c : Calibration) (samples : Nat)
    (now : Instant) :
    ((l.noted r).busy.activate c samples now).cell =
      l.cell.swap (.ofCalibration l.settings.scorerPoolSize samples now c) := by
  rw [← (Alike.noted l r).cell, ← (Alike.noted l r).settings]
  rfl

/-- A training is going on, and something is in force. -/
def IsRetraining (l : Learner) : Prop :=
  l.isTraining = true ∧ l.isTrained = true

theorem Alike.isRetraining (h : l.Alike l₁) (hl : l.IsRetraining) : l₁.IsRetraining :=
  ⟨h.training.trans hl.1, by rw [isTrained, h.cell]; exact hl.2⟩

theorem isRetraining_activate (l : Learner) (c : Calibration) (samples : Nat) (now : Instant) :
    (l.busy.activate c samples now).IsRetraining :=
  ⟨rfl, rfl⟩

/-- While a training is going on, a request only has the learner remember, and is not heard of. -/
theorem serve_of_isRetraining (hear : Listener σ) (r : Request) (hl : l.IsRetraining) (s : σ) :
    l.Alike (serve hear r l s).1 ∧ (serve hear r l s).2 = s := by
  obtain ⟨htraining, htrained⟩ := hl
  cases r with
  | retrain now =>
      simp only [serve, retrain, htraining, if_true, and_true]
      exact .refl l
  | observe e now =>
      obtain ⟨active, hactive⟩ := Option.isSome_iff_exists.mp htrained
      rw [serve, observe_of_current hear hactive]
      exact ⟨.retain l e now, rfl⟩

theorem serveAll_of_isRetraining (hear : Listener σ) (requests : List Request)
    (hl : l.IsRetraining) (s : σ) : l.Alike (serveAll hear requests l s).1 := by
  induction requests generalizing l s with
  | nil => exact .refl l
  | cons r rest ih =>
      obtain ⟨halike, -⟩ := serve_of_isRetraining hear r hl s
      exact halike.trans (ih (halike.isRetraining hl) _)

end Learner

/-! ### Listeners -/

/-- The listener leaves a learner as it is, except perhaps for what it remembers, if it is told of
something read from files or during a training. -/
def Listener.IsQuiet (hear : Listener σ) : Prop :=
  ∀ (a : Activation) (l : Learner) (s : σ), a.kind = .restore ∨ l.IsRetraining →
    l.Alike (hear a l s).1

/-- **A listener that does nothing but make requests is quiet.**  It cannot make any when it is told
of something read from files, since the learner is not yet in use. -/
theorem Listener.isQuiet_of_requests {hear : Listener σ}
    (hrestore : ∀ a l s, a.kind = .restore → (hear a l s).1 = l)
    (hasks : ∀ a l s, ∃ requests,
      (hear a l s).1 = (Learner.serveAll Learner.unheard requests l ()).1) :
    hear.IsQuiet := by
  intro a l s h
  rcases h with h | h
  · rw [hrestore a l s h]
    exact .refl l
  · obtain ⟨requests, hrequests⟩ := hasks a l s
    rw [hrequests]
    exact Learner.serveAll_of_isRetraining _ requests h ()

theorem Listener.IsQuiet.both {first : Listener σ} {second : Listener τ} (hfirst : first.IsQuiet)
    (hsecond : second.IsQuiet) : (first.both second).IsQuiet := by
  intro a l s h
  have halike := hfirst a l s.1 h
  exact halike.trans (hsecond a _ s.2 (h.imp_right halike.isRetraining))

theorem Learner.isQuiet_unheard : Learner.unheard.IsQuiet := fun _ l _ _ => .refl l

theorem Archive.isQuiet_listener : Archive.listener.IsQuiet := fun _ l _ _ => .refl l

theorem Metrics.isQuiet_listener : Metrics.listener.IsQuiet := fun _ l _ _ => .refl l

/-- To call back is to request a training. -/
theorem Notice.isQuiet_listener (callsBack : Bool) (now : Instant) :
    (Notice.listener callsBack now).IsQuiet := by
  refine Listener.isQuiet_of_requests (fun a l s h => ?_) fun a l s => ?_
  · simp [Notice.listener, h]
  · unfold Notice.listener
    split
    · exact ⟨[.retrain now], rfl⟩
    · exact ⟨[], rfl⟩

namespace Learner

/-- What the listener does with what it hears changes nothing that is in force. -/
theorem cell_conclude {hear : Listener σ} (hquiet : hear.IsQuiet) {told : Learner}
    (htold : told.IsRetraining) (a : Activation) (s : σ) :
    (conclude hear (some a) told s).1.cell = told.cell :=
  (hquiet a told s (.inr htold)).cell

/-- No training is going on, and the buffer does not hold more than it may. -/
structure IsReady (l : Learner) : Prop where
  idle : l.isTraining = false
  size : l.buffer.size ≤ l.buffer.capacity
  capacity : l.buffer.capacity = max l.settings.baselineCap 1

/-- **What a request can bring**, judged by the phase before it and by its outcome. -/
inductive Fits (l : Learner) : Request → Option Outcome → Activation → Prop where
  /-- The first training. -/
  | baseline {e : Event} {now : Instant} {c : Calibration} (hclean : e.isClean = true)
      (hphase : l.phase = .warmUp) : Fits l (.observe e now) none ⟨.baseline, c⟩
  /-- A threshold for the rate, where the score was the rate before. -/
  | recalibrate {now : Instant} {x : Float} {n : Nat} (hphase : l.phase = .fallback) :
      Fits l (.retrain now) (some (.recalibrated x n)) ⟨.recalibrate, .byRate x⟩
  /-- A model. -/
  | retrain {now : Instant} {m : PcaModel} {x : Float} {n : Nat} (hphase : l.phase ≠ .warmUp) :
      Fits l (.retrain now) (some (.retrained x n)) ⟨.retrain, .byModel m x⟩

/-- An activation and where it comes from: it was found in samples, of which there are not more than
the buffer may hold, and it comes into force with the next version. -/
structure Brings (l : Learner) (r : Request) (outcome : Option Outcome) (a : Activation)
    (cell : ActiveCell) : Prop where
  fits : Fits l r outcome a
  found : ∃ samples : List Features, samples.length ≤ l.buffer.capacity ∧
    l.settings.calibrate samples = .ok a.calibration ∧
      cell = l.cell.swap
        (.ofCalibration l.settings.scorerPoolSize samples.length r.time a.calibration)

/-- What a request does to what is in force, and what the listener hears of it. -/
inductive Change (hear : Listener σ) (l : Learner) (s : σ) (r : Request) (outcome : Option Outcome)
    (l' : Learner) (s' : σ) : Prop where
  /-- Nothing comes into force. -/
  | rests (hcell : l'.cell = l.cell) (hheard : s' = s)
      (hskipped : ∀ o, outcome = some o → o.isSkipped = true)
  /-- An activation comes into force, and the listener hears of it once, from a learner that already
  has it in force. -/
  | brings (a : Activation) (told : Learner) (h : Brings l r outcome a l'.cell)
      (htold : told.cell = l'.cell) (hheard : s' = (hear a told s).2)

/-- What a request does. -/
structure Serves (hear : Listener σ) (l : Learner) (s : σ) (r : Request) (outcome : Option Outcome)
    (l' : Learner) (s' : σ) : Prop where
  ready : l'.IsReady
  settings : l'.settings = l.settings
  change : Change hear l s r outcome l' s'

variable {hear : Listener σ} {l l' : Learner}

theorem IsReady.capacity_pos (h : l.IsReady) : 0 < l.buffer.capacity := by
  rw [h.capacity]
  exact Nat.lt_of_lt_of_le Nat.one_pos (Nat.le_max_right _ _)

theorem IsReady.alike (h : l.IsReady) (ha : l.Alike l') : l'.IsReady where
  idle := ha.training.trans h.idle
  size := ha.capacity ▸ ha.size h.capacity_pos h.size
  capacity := by rw [ha.capacity, ha.settings, h.capacity]

/-! ### One request -/

theorem phase_eq_warmUp : l.phase = .warmUp ↔ l.cell.current = none := by
  unfold phase
  cases l.cell.current with
  | none => exact iff_of_true rfl rfl
  | some active =>
      refine iff_of_false (fun h => ?_) nofun
      simp only at h
      split at h <;> cases h

theorem phase_of_current {active : Active} (h : l.cell.current = some active) :
    l.phase = if active.isFallback then .fallback else .model := by
  rw [phase, h]

/-- A training that brings nothing is skipped. -/
theorem isSkipped_of_unbrought (hear : Listener σ) (hready : l.IsReady) {r : Request}
    (h : l.brought? r = none) (s : σ) : ∀ o, outcome? hear r l s = some o → o.isSkipped = true := by
  cases r with
  | observe e now => nofun
  | retrain now =>
      rintro _ ⟨⟩
      cases hcurrent : l.cell.current with
      | none =>
          rw [retrain_of_none hear hready.idle hcurrent]
          rfl
      | some active =>
          cases hfound : l.found active now with
          | error reason =>
              rw [retrain_of_error hear hready.idle hcurrent hfound]
              rfl
          | ok c => simp [brought?, hcurrent, hfound, Except.toOption] at h

/-- **What a request brings fits it**: in no training is a model given up for the rate. -/
theorem fits_of_brought (hear : Listener σ) (hready : l.IsReady) {r : Request} {a : Activation}
    (h : l.brought? r = some a) (s : σ) : Fits l r (outcome? hear r l s) a := by
  obtain ⟨kind, c⟩ := a
  cases r with
  | observe e now =>
      obtain ⟨hnone, hclean, rfl, -⟩ := brought?_observe h
      exact .baseline hclean (phase_eq_warmUp.mpr hnone)
  | retrain now =>
      obtain ⟨active, hactive, hkind, hfound⟩ := brought?_retrain h
      obtain rfl : kind = c.trainingKind := hkind
      have hphase := phase_of_current hactive
      rw [outcome?, retrain_of_ok hear hready.idle hactive hfound]
      cases c with
      | byRate x =>
          rw [(laterTraining_spec hfound).2 rfl, if_pos rfl] at hphase
          exact .recalibrate hphase
      | byModel m x =>
          refine .retrain ?_
          rw [hphase]
          split <;> nofun

/-- What a request brings is heard of once, by a listener that changes nothing that is in force. -/
theorem serves_of_brought (hquiet : hear.IsQuiet) (hready : l.IsReady) {r : Request} {a : Activation}
    (h : l.brought? r = some a) (s : σ) :
    Serves hear l s r (outcome? hear r l s) (serve hear r l s).1 (serve hear r l s).2 := by
  have hnoted := Alike.noted l r
  have hready' := hready.alike hnoted
  let told := (l.noted r).busy.activate a.calibration (l.noted r).buffer.size r.time
  have halike : told.Alike (hear a told s).1 :=
    hquiet a told s (.inr (isRetraining_activate _ _ _ _))
  have hbrings : Brings l r (outcome? hear r l s) a told.cell := by
    refine ⟨fits_of_brought hear hready h s, (l.noted r).buffer.features, ?_,
      calibrate_of_brought h, ?_⟩
    · rw [BaselineBuffer.length_features, ← hnoted.capacity]
      exact hready'.size
    · rw [BaselineBuffer.length_features]
      exact cell_activate_noted l r _ _ _
  have htold : { told with isTraining := false }.IsReady :=
    ⟨rfl, hready'.size, hready'.capacity⟩
  have hafter : { told with isTraining := false }.Alike
      { (hear a told s).1 with isTraining := false } :=
    ⟨halike.settings, halike.cell, rfl, halike.capacity, halike.size⟩
  rw [serve_of_brought hear hready.idle h]
  refine ⟨htold.alike hafter, halike.settings.trans hnoted.settings, ?_⟩
  refine .brings a told ?_ halike.cell.symm rfl
  exact (congrArg (Brings l r _ a) halike.cell).mpr hbrings

/-- **What a single request does**: nothing that is in force changes, or one activation comes into
force and is heard of once. -/
theorem serve_spec (hquiet : hear.IsQuiet) (hready : l.IsReady) (r : Request) (s : σ) :
    Serves hear l s r (outcome? hear r l s) (serve hear r l s).1 (serve hear r l s).2 := by
  cases h : l.brought? r with
  | some a => exact serves_of_brought hquiet hready h s
  | none =>
      have hnoted := Alike.noted l r
      have hskipped := isSkipped_of_unbrought hear hready h s
      rw [serve_of_unbrought hear hready.idle h]
      exact ⟨hready.alike hnoted, hnoted.settings, .rests hnoted.cell rfl hskipped⟩

/-! ### The start -/

theorem start_spec {settings : Deployment} (h : start settings = .ok l) :
    l = ⟨settings, .empty, .empty settings.baselineCap, false⟩ := by
  unfold start at h
  split at h
  · cases h
  · split at h
    · cases h
    · cases h
      rfl

theorem flaw?_of_start {settings : Deployment} (h : start settings = .ok l) :
    settings.flaw? = none := by
  unfold start at h
  split at h
  · cases h
  · assumption

theorem isReady_of_start {settings : Deployment} (h : start settings = .ok l) : l.IsReady := by
  rw [start_spec h]
  exact ⟨rfl, Nat.zero_le _, rfl⟩

/-- **What a learner starts with**: nothing, or what the files hold, of which the listener hears. -/
inductive Resumes (hear : Listener σ) (archive : Archive) (now : Instant) (s : σ) (l : Learner)
    (s' : σ) : Prop where
  | empty (hheld : ∀ c, archive.held ≠ .ok (some c)) (hcell : l.cell = .empty) (hheard : s' = s)
  | restored (c : Calibration) (told : Learner) (hheld : archive.held = .ok (some c))
      (hcell : l.cell = ActiveCell.empty.swap (.ofCalibration l.settings.scorerPoolSize 0 now c))
      (htold : told.cell = l.cell) (hheard : s' = (hear ⟨.restore, c⟩ told s).2)

/-- A learner is started with nothing, and what the files hold comes into force, if anything. -/
theorem resume_eq_ok {settings : Deployment} {archive : Archive} {now : Instant} {s s' : σ}
    (h : resume hear settings archive now s = .ok (l, s')) :
    ∃ l₁, start settings = .ok l₁ ∧
      ((∃ c, archive.held = .ok (some c) ∧ l₁.restore hear c now s = (l, s')) ∨
        (∀ c, archive.held ≠ .ok (some c)) ∧ l₁ = l ∧ s = s') := by
  obtain ⟨l₁, hstart, h⟩ := bind_eq_ok h
  refine ⟨l₁, hstart, ?_⟩
  split at h
  · exact .inl ⟨_, ‹_›, Except.ok.inj h⟩
  · exact .inr ⟨‹_›, Prod.mk.inj (Except.ok.inj h)⟩

theorem resume_spec (hquiet : hear.IsQuiet) {settings : Deployment} {archive : Archive}
    {now : Instant} {s s' : σ} (h : resume hear settings archive now s = .ok (l, s')) :
    l.IsReady ∧ l.settings = settings ∧ Resumes hear archive now s l s' := by
  obtain ⟨l₁, hstart, ⟨c, hheld, hrestore⟩ | ⟨hheld, rfl, rfl⟩⟩ := resume_eq_ok h
  · have hready := isReady_of_start hstart
    have hl₁ := start_spec hstart
    have halike := hquiet ⟨.restore, c⟩ (l₁.activate c 0 now) s (.inl rfl)
    have hsettings : l₁.settings = settings := by rw [hl₁]
    have hcell : l₁.cell = .empty := by rw [hl₁]
    have hactive : (l₁.activate c 0 now).IsReady := ⟨hready.idle, hready.size, hready.capacity⟩
    rw [restore] at hrestore
    rw [hrestore] at halike
    refine ⟨hactive.alike halike, halike.settings.trans hsettings, ?_⟩
    refine .restored c (l₁.activate c 0 now) hheld ?_ halike.cell.symm (by rw [hrestore])
    refine halike.cell.trans ?_
    rw [halike.settings, activate, hcell]
  · refine ⟨isReady_of_start hstart, ?_⟩
    rw [start_spec hstart]
    exact ⟨rfl, .empty hheld rfl rfl⟩

/-- A learner starts whatever the files hold, if the settings can be run. -/
theorem exists_resume {ρ : Type} {settings : Deployment} (hstart : start settings = .ok l)
    (hear : Listener ρ) (archive : Archive) (now : Instant) (s : ρ) :
    ∃ l' s', resume hear settings archive now s = .ok (l', s') := by
  unfold resume
  rw [hstart]
  cases archive.held with
  | error fault => exact ⟨_, _, rfl⟩
  | ok found =>
      cases found with
      | none => exact ⟨_, _, rfl⟩
      | some c => exact ⟨_, _, rfl⟩

end Learner

end TrafficWatch
