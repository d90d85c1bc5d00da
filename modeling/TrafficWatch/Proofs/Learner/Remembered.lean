import TrafficWatch.Proofs.Learner.Active
import TrafficWatch.Proofs.Learner.Training
import TrafficWatch.Proofs.Settings.Validity

/-!
# Learner — Remembered

What is left of all that a learner has observed when it is trained.  On a clock that does not step
back, a learner forgets only what is too old for every later training, whether it was shed or pruned
(`Learner.Remembers`); every request preserves this, those included that a listener makes while it
is being told of something (`Caller`).  So a training finds what it is due (`Settings.dueSamples`):
of the latest clean events the ones within the training window, and no others
(`Learner.trains_on_due`).
-/

namespace TrafficWatch

variable {σ : Type}

/-! ### Samples -/

/-- The sample that a request hands in, if it is a clean event. -/
def Request.sample? : Request → Option Sample
  | observe e now => if e.isClean then some ⟨now, e.features⟩ else none
  | retrain _ => none

/-- The clock does not step back between requests. -/
def Request.Ordered (asked : List Request) : Prop :=
  asked.Pairwise fun a b => a.time ≤ b.time

/-- The clean events among requests, in order. -/
def samplesOf (asked : List Request) : List Sample :=
  asked.filterMap Request.sample?

theorem samplesOf_snoc (asked : List Request) (r : Request) :
    samplesOf (asked ++ [r]) = samplesOf asked ++ r.sample?.toList := by
  rw [samplesOf, List.filterMap_append]
  cases h : r.sample? <;> simp [samplesOf, h]

namespace Settings

/-- Whether a sample is young enough for a training. -/
def isYoung (s : Settings) (now : Instant) (x : Sample) : Bool :=
  decide (now - s.duration .trainingWindow ≤ x.time)

/-- **What a training is due** after requests: of the latest clean events, as many as are remembered
at most, those that are young enough. -/
def dueSamples (s : Settings) (asked : List Request) (now : Instant) : List Sample :=
  ((samplesOf asked).rtake s.baselineCap).filter (s.isYoung now)

/-- What is later is younger. -/
theorem isYoung_of_le (s : Settings) (now : Instant) {x y : Sample} (h : x.time ≤ y.time)
    (hx : s.isYoung now x = true) : s.isYoung now y = true :=
  decide_eq_true (Int.le_trans (of_decide_eq_true hx) h)

end Settings

theorem Learner.samples_forget (l : Learner) (now : Instant) :
    (l.forget now).buffer.samples = l.buffer.samples.filter (l.settings.isYoung now) :=
  rfl

/-- A sample is handed in with a clean event. -/
theorem Request.sample?_eq_some {r : Request} {x : Sample} (h : r.sample? = some x) :
    ∃ e now, r = .observe e now ∧ e.isClean = true ∧ x = ⟨now, e.features⟩ := by
  cases r with
  | retrain now => cases h
  | observe e now =>
      rw [sample?] at h
      split at h
      · cases h
        exact ⟨e, now, rfl, ‹_›, rfl⟩
      · cases h

theorem Request.time_of_sample? {r : Request} {x : Sample} (h : r.sample? = some x) :
    x.time = r.time := by
  obtain ⟨e, now, rfl, -, rfl⟩ := sample?_eq_some h
  rfl

theorem Request.Ordered.samplesOf {asked : List Request} (h : Ordered asked) :
    (samplesOf asked).Pairwise fun x y => x.time ≤ y.time :=
  h.filterMap Request.sample? fun _ _ hle _ hx _ hy => by
    rw [time_of_sample? hx, time_of_sample? hy]
    exact hle

/-! ### Those who listen -/

/-- Somebody who makes requests of a learner whenever it is told of something.  This is what a
listener can do to a learner, and it does so in its own way, depending on what it keeps. -/
structure Caller (σ : Type) where
  asks : Activation → Learner → σ → List Request
  /-- What it keeps afterwards. -/
  next : Activation → Learner → σ → σ

namespace Caller

/-- The listener, with all that has been asked of the learner so far.  It asks for nothing when it is
told of what was read from files, since the learner is not yet in use. -/
def listener (c : Caller σ) : Listener (σ × List Request) := fun a l (s, asked) =>
  let requests := if a.kind = .restore then [] else c.asks a l s
  ((Learner.serveAll Learner.unheard requests l ()).1, c.next a l s, asked ++ requests)

/-- A request is made of the learner, and noted. -/
def serve (c : Caller σ) (r : Request) (l : Learner) (s : σ × List Request) :
    Learner × σ × List Request :=
  l.serve c.listener r (s.1, s.2 ++ [r])

/-- Requests are made one after the other, and noted together with those that are made meanwhile. -/
def serveAll (c : Caller σ) : List Request → Learner → σ × List Request → Learner × σ × List Request
  | [], l, s => (l, s)
  | r :: rest, l, s => c.serveAll rest (c.serve r l s).1 (c.serve r l s).2

theorem isQuiet_listener (c : Caller σ) : c.listener.IsQuiet := by
  refine Listener.isQuiet_of_requests (fun a l s h => ?_) fun a l s => ?_
  · simp [listener, h, Learner.serveAll]
  · exact ⟨if a.kind = .restore then [] else c.asks a l s.1, rfl⟩

end Caller

namespace Learner

variable {l l' : Learner} {asked : List Request}

/-- **What a learner remembers** of all that was asked of it: on a clock that does not step back, the
latest of the samples that are not too old for a later training. -/
structure Remembers (asked : List Request) (l : Learner) : Prop where
  room : 0 < l.settings.baselineCap
  capacity : l.buffer.capacity = l.settings.baselineCap
  samples : Request.Ordered asked → ∃ old kept, samplesOf asked = old ++ kept ∧
    l.buffer.samples = kept.rtake l.buffer.capacity ∧
      ∀ x ∈ old, ∃ r ∈ asked, x.time < r.time - l.settings.duration .trainingWindow

namespace Remembers

theorem congr (h : Remembers asked l) (hsettings : l'.settings = l.settings)
    (hbuffer : l'.buffer = l.buffer) : Remembers asked l' := by
  refine ⟨?_, ?_, ?_⟩
  · rw [hsettings]
    exact h.room
  · rw [hsettings, hbuffer]
    exact h.capacity
  · rw [hsettings, hbuffer]
    exact h.samples

/-- A request that hands in nothing need not change anything. -/
theorem skip (h : Remembers asked l) {r : Request} (hr : r.sample? = none) :
    Remembers (asked ++ [r]) l where
  room := h.room
  capacity := h.capacity
  samples := fun hordered => by
    obtain ⟨old, kept, hsamples, hbuffer, hold⟩ := h.samples (List.pairwise_append.mp hordered).1
    refine ⟨old, kept, ?_, hbuffer, fun x hx => ?_⟩
    · rw [samplesOf_snoc, hr, hsamples]
      exact List.append_nil _
    · obtain ⟨r', hr', hlt⟩ := hold x hx
      exact ⟨r', List.mem_append_left _ hr', hlt⟩

/-- What is shed for an event was not among the latest any more. -/
theorem retain (h : Remembers asked l) (e : Event) (now : Instant) :
    Remembers (asked ++ [.observe e now]) (l.retain e now) := by
  rw [Learner.retain]
  split
  · rename_i hclean
    refine ⟨h.room, h.capacity, fun hordered => ?_⟩
    obtain ⟨old, kept, hsamples, hbuffer, hold⟩ := h.samples (List.pairwise_append.mp hordered).1
    have hsample : (Request.observe e now).sample? = some ⟨now, e.features⟩ := if_pos hclean
    refine ⟨old, kept ++ [⟨now, e.features⟩], ?_, ?_, fun x hx => ?_⟩
    · rw [samplesOf_snoc, hsample, hsamples, List.append_assoc]
      rfl
    · exact BaselineBuffer.samples_push hbuffer (h.capacity ▸ h.room) _
    · obtain ⟨r, hr, hlt⟩ := hold x hx
      exact ⟨r, List.mem_append_left _ hr, hlt⟩
  · rename_i hunclean
    exact h.skip (if_neg hunclean)

/-- What is forgotten for its age stays too old. -/
theorem forget (h : Remembers asked l) (now : Instant) :
    Remembers (asked ++ [.retrain now]) (l.forget now) where
  room := h.room
  capacity := h.capacity
  samples := fun hordered => by
    have hbefore := (List.pairwise_append.mp hordered).1
    obtain ⟨old, kept, hsamples, hbuffer, hold⟩ := h.samples hbefore
    have hkept := Request.Ordered.samplesOf hbefore
    rw [hsamples] at hkept
    replace hkept := (List.pairwise_append.mp hkept).2.1.imp (l.settings.isYoung_of_le now)
    refine ⟨old ++ kept.filter fun x => !l.settings.isYoung now x,
      kept.filter (l.settings.isYoung now), ?_, ?_, fun x hx => ?_⟩
    · rw [samplesOf_snoc, hsamples, List.append_assoc, List.append_assoc,
        filter_not_append_filter hkept]
      exact congrArg (old ++ ·) (List.append_nil kept)
    · rw [Learner.samples_forget, hbuffer, filter_rtake hkept]
      rfl
    · rcases List.mem_append.mp hx with hx | hx
      · obtain ⟨r, hr, hlt⟩ := hold x hx
        exact ⟨r, List.mem_append_left _ hr, hlt⟩
      · refine ⟨.retrain now, List.mem_append_right _ (List.mem_singleton.mpr rfl), ?_⟩
        have hyoung : l.settings.isYoung now x = false := by simpa using (List.mem_filter.mp hx).2
        exact Int.not_le.mp (of_decide_eq_false hyoung)

/-- **What is left for a training** is what it is due. -/
theorem samples_forget (h : Remembers asked l) {now : Instant}
    (hordered : Request.Ordered (asked ++ [.retrain now])) :
    (l.forget now).buffer.samples = l.settings.dueSamples asked now := by
  obtain ⟨hbefore, -, hlast⟩ := List.pairwise_append.mp hordered
  obtain ⟨old, kept, hsamples, hbuffer, hold⟩ := h.samples hbefore
  have hall := Request.Ordered.samplesOf hbefore
  rw [hsamples] at hall
  replace hall := hall.imp (l.settings.isYoung_of_le now)
  have hnone : old.filter (l.settings.isYoung now) = [] := List.filter_eq_nil_iff.mpr fun x hx => by
    obtain ⟨r, hr, hlt⟩ := hold x hx
    have hle : r.time ≤ now := hlast r hr _ (List.mem_singleton.mpr rfl)
    have hold : x.time < now - l.settings.duration .trainingWindow :=
      Int.lt_of_lt_of_le hlt (Int.sub_le_sub_right hle _)
    exact fun hyoung => Int.not_le.mpr hold (of_decide_eq_true hyoung)
  calc (l.forget now).buffer.samples
      = (kept.rtake l.buffer.capacity).filter (l.settings.isYoung now) := by
        rw [Learner.samples_forget, hbuffer]
    _ = (kept.filter (l.settings.isYoung now)).rtake l.buffer.capacity :=
        filter_rtake (List.pairwise_append.mp hall).2.1 _
    _ = ((old ++ kept).filter (l.settings.isYoung now)).rtake l.buffer.capacity := by
        rw [List.filter_append, hnone, List.nil_append]
    _ = ((old ++ kept).rtake l.buffer.capacity).filter (l.settings.isYoung now) :=
        (filter_rtake hall _).symm
    _ = l.settings.dueSamples asked now := by
        rw [← hsamples, h.capacity, Settings.dueSamples]

end Remembers

/-! ### Requests -/

/-- While a training is going on, an event is remembered if it is clean, and nothing else is done. -/
theorem serve_unheard_of_isRetraining (hl : l.IsRetraining) (r : Request) :
    (serve unheard r l ()).1 =
      match r with
      | .observe e now => l.retain e now
      | .retrain _ => l := by
  cases r with
  | observe e now =>
      obtain ⟨active, hactive⟩ := Option.isSome_iff_exists.mp hl.2
      exact congrArg (·.2.1) (observe_of_current unheard hactive e now ())
  | retrain now =>
      simp only [serve, retrain, hl.1, if_true]

theorem Remembers.serveAll (h : Remembers asked l) (hl : l.IsRetraining) (requests : List Request) :
    Remembers (asked ++ requests) (serveAll unheard requests l ()).1 := by
  induction requests generalizing l asked with
  | nil => rwa [List.append_nil]
  | cons r rest ih =>
      have hnext : Remembers (asked ++ [r]) (serve unheard r l ()).1 := by
        rw [serve_unheard_of_isRetraining hl]
        cases r with
        | observe e now => exact h.retain e now
        | retrain now => exact h.skip rfl
      have halike := (serve_of_isRetraining unheard r hl ()).1
      have hrest := ih hnext (halike.isRetraining hl)
      rwa [List.append_assoc] at hrest

section Called

variable (c : Caller σ)

/-- What a listener asks while it is being told is remembered as well. -/
theorem Remembers.conclude {told : Learner} (h : Remembers asked told) (htold : told.IsRetraining)
    (a : Activation) (s : σ) :
    Remembers (conclude c.listener (some a) told (s, asked)).2.2
      (conclude c.listener (some a) told (s, asked)).1 := by
  have hasked := h.serveAll htold (if a.kind = .restore then [] else c.asks a told s)
  exact hasked.congr rfl rfl

/-- What a request leaves to remember is what should be remembered with it. -/
theorem Remembers.noted (h : Remembers asked l) (r : Request) :
    Remembers (asked ++ [r]) (l.noted r) := by
  cases r with
  | observe e now => exact h.retain e now
  | retrain now =>
      rw [Learner.noted]
      split
      · exact h.forget now
      · exact h.skip rfl

/-- **Every request leaves the learner with what it should remember.** -/
theorem Remembers.serve (h : Remembers asked l) (hidle : l.isTraining = false) (r : Request) (s : σ) :
    Remembers (c.serve r l (s, asked)).2.2 (c.serve r l (s, asked)).1 := by
  have hnoted := h.noted r
  rw [Caller.serve]
  cases hbrought : l.brought? r with
  | none =>
      rw [serve_of_unbrought c.listener hidle hbrought]
      exact hnoted
  | some a =>
      have htold : Remembers (asked ++ [r])
          ((l.noted r).busy.activate a.calibration (l.noted r).buffer.size r.time) :=
        hnoted.congr rfl rfl
      rw [serve_of_brought c.listener hidle hbrought]
      exact htold.conclude c (isRetraining_activate _ _ _ _) a s

theorem Remembers.run (h : Remembers asked l) (hready : l.IsReady) (requests : List Request) (s : σ) :
    (c.serveAll requests l (s, asked)).1.IsReady ∧
      (c.serveAll requests l (s, asked)).1.settings = l.settings ∧
        Remembers (c.serveAll requests l (s, asked)).2.2 (c.serveAll requests l (s, asked)).1 := by
  induction requests generalizing l s asked with
  | nil => exact ⟨hready, rfl, h⟩
  | cons r rest ih =>
      have hserves := serve_spec c.isQuiet_listener hready r (s, asked ++ [r])
      obtain ⟨hrest, hsettings, hremembers⟩ :=
        ih (h.serve c hready.idle r s) hserves.ready (c.serve r l (s, asked)).2.1
      exact ⟨hrest, hsettings.trans hserves.settings, hremembers⟩

end Called

end Learner

end TrafficWatch
