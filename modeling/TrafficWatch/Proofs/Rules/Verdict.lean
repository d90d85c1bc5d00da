import TrafficWatch.Proofs.Rules.History
import TrafficWatch.Proofs.Rules.WindowStore
import TrafficWatch.Rules.Detector

/-!
# Rules — Verdict

The verdict of the rules as a function of the whole history, and the proof that the detector, which
forgets, never says anything else.

`History.verdict` looks at everything that has been observed of one client on one route: it counts
what is no older than the two windows of the rules and takes the first ground that holds.  The
detector counts in windows that are made when they are needed, lose what is too old, and are swept
out when they have been idle for too long, at moments that the traffic of others decides.
`RuleDetector.Tracks` ties the two together: the window of a key keeps what counts of the key's
history, and a key without a window has no history that counts.  It holds at the start and is kept
by every step, whence `RuleDetector.verdicts_eq_history`.
-/

namespace TrafficWatch

/-! ### The verdict of a history -/

/-- The window of a rule; it is never shorter than a second. -/
def Settings.ruleWindow (s : Settings) (span : Span) : Duration :=
  max (s.duration span) (.ofSeconds 1)

namespace History

/-- What has been observed of one client on one route. -/
def ofKey (h : History) (key : WindowKey) : History :=
  h.filter fun o => decide (o.event.windowKey = key)

/-- An age in seconds, held between one second and a span. -/
def heldSeconds (age span : Duration) : Float :=
  max 1.0 (min (Window.secondsOf age) (Window.secondsOf span))

/-- The requests per second over those that are no older than a span. -/
def rate (h : History) (now : Instant) (span : Duration) : Float :=
  match h.times (fun _ => true) now span with
  | [] => 0.0
  | oldest :: later => Float.ofNat (later.length + 1) / heldSeconds (now - oldest) span

/-- The number of events of some kind that are no older than a span. -/
def count (h : History) (kind : Event → Bool) (now : Instant) (span : Duration) : Nat :=
  (h.times kind now span).length

/-- The grounds on which an observation can be an anomaly, in order, and whether each holds. -/
def grounds (s : Settings) (h : History) (o : Observation) : List (Bool × Reason) :=
  let errors (kind : Event → Bool) : Nat := h.count kind o.time (s.ruleWindow .errorWindow)
  [(decide (s.rpsThreshold < h.rate o.time (s.ruleWindow .rpsWindow)), .rpsSpike),
    (decide (s.clientErrorThreshold < errors Event.isClientError), .clientErrorSpike),
    (decide (s.serverErrorThreshold < errors Event.isServerError), .serverErrorSpike),
    (decide (s.wafThreshold < errors Event.wafHit), .wafSpike),
    (decide (o.event.agentEntropy < s.agentEntropyThreshold), .lowAgentEntropy)]

/-- The verdict on an observation, given the history of its key up to and with it. -/
def verdict (s : Settings) (h : History) (o : Observation) : Verdict :=
  match (grounds s h o).find? (·.1) with
  | some (_, reason) => .anomaly reason
  | none => .normal

/-- The verdicts on observations, one after the other, given what was observed before. -/
def verdicts (s : Settings) (before : History) : History → List Verdict
  | [] => []
  | o :: rest =>
    verdict s (ofKey (before ++ [o]) o.event.windowKey) o :: verdicts s (before ++ [o]) rest

theorem ofKey_snoc_self (h : History) (o : Observation) :
    ofKey (h ++ [o]) o.event.windowKey = h.ofKey o.event.windowKey ++ [o] := by
  simp [ofKey]

theorem ofKey_snoc_of_ne {o : Observation} {key : WindowKey} (hk : key ≠ o.event.windowKey)
    (h : History) : ofKey (h ++ [o]) key = h.ofKey key := by
  simp [ofKey, Ne.symm hk]

theorem Ordered.ofKey {h : History} (ho : h.Ordered) (key : WindowKey) : (h.ofKey key).Ordered :=
  List.Pairwise.filter _ ho

theorem Until.ofKey {h : History} {now : Instant} (hu : h.Until now) (key : WindowKey) :
    (h.ofKey key).Until now :=
  fun o ho => hu o (List.mem_of_mem_filter ho)

end History

/-! ### The counts of a window -/

/-- The seconds of a length of time are a number. -/
theorem Window.isNaN_secondsOf (d : Duration) : (secondsOf d).isNaN = false := by
  obtain ⟨s, hs⟩ := Double.exists_sign?_ofInt d.milliseconds
  have hthousand : Double.parts 1000.0 = .finite .positive (1000 * 2 ^ 43) (-43) (by decide) := rfl
  exact Double.isNaN_of_sign? (Double.sign?_div hs hthousand)

/-- An age is held between a second and the span. -/
theorem Window.divisor_eq (age span : Duration) :
    divisor age span = History.heldSeconds age span := by
  have hone : (1.0 : Float).isNaN = false := rfl
  have hage := isNaN_secondsOf age
  have hspan := isNaN_secondsOf span
  have hmin : (if secondsOf span < secondsOf age then secondsOf span else secondsOf age) =
      min (secondsOf age) (secondsOf span) := by
    change _ = if secondsOf age ≤ secondsOf span then secondsOf age else secondsOf span
    by_cases h : secondsOf span < secondsOf age
    · rw [if_pos h, if_neg fun hle => (Double.le_iff_not_lt hage hspan).mp hle h]
    · rw [if_neg h, if_pos ((Double.le_iff_not_lt hage hspan).mpr h)]
  have hheld : (min (secondsOf age) (secondsOf span)).isNaN = false := by
    rw [← hmin]
    split
    · exact hspan
    · exact hage
  unfold divisor History.heldSeconds
  simp only [hmin]
  change _ = if 1.0 ≤ min (secondsOf age) (secondsOf span) then _ else _
  by_cases h : min (secondsOf age) (secondsOf span) < 1.0
  · rw [if_pos h, if_neg fun hle => (Double.le_iff_not_lt hone hheld).mp hle h]
  · rw [if_neg h, if_pos ((Double.le_iff_not_lt hone hheld).mpr h)]

/-- The counts of a history at a time. -/
def History.counts (s : Settings) (h : History) (now : Instant) : Counts where
  rps := h.rate now (s.ruleWindow .rpsWindow)
  clientErrors := h.count Event.isClientError now (s.ruleWindow .errorWindow)
  serverErrors := h.count Event.isServerError now (s.ruleWindow .errorWindow)
  wafHits := h.count Event.wafHit now (s.ruleWindow .errorWindow)

/-- The counts of a window are those of the history it follows, at the time when it was last seen. -/
theorem Window.Follows.counts_eq {s : Settings} {w : Window} {h : History}
    (hw : w.Follows h (s.ruleWindow .rpsWindow) (s.ruleWindow .errorWindow)) :
    w.counts = h.counts s w.lastSeen := by
  have hrps : w.rps = h.rate w.lastSeen (s.ruleWindow .rpsWindow) := by
    unfold Window.rps History.rate
    rw [hw.requests, hw.rps]
    cases h.times (fun _ => true) w.lastSeen (s.ruleWindow .rpsWindow) with
    | nil => rfl
    | cons oldest later =>
      change _ / Window.divisor _ _ = _
      rw [Window.divisor_eq]
      rfl
  simp only [Window.counts, History.counts, History.count, hrps, hw.clientErrors, hw.serverErrors,
    hw.wafHits]

/-- The verdict by the first ground that holds. -/
def Verdict.ofGrounds (grounds : List (Bool × Reason)) : Verdict :=
  match grounds.find? (·.1) with
  | some (_, reason) => .anomaly reason
  | none => .normal

theorem Verdict.ofGrounds_cons (p : Prop) [Decidable p] (reason : Reason)
    (rest : List (Bool × Reason)) :
    ofGrounds ((decide p, reason) :: rest) = if p then .anomaly reason else ofGrounds rest := by
  by_cases h : p <;> simp [ofGrounds, h]

/-- **The verdict on the counts of a history** is that of the history. -/
theorem Settings.judge_counts (s : Settings) (h : History) (o : Observation) :
    s.judge o.event (h.counts s o.time) = h.verdict s o := by
  change _ = Verdict.ofGrounds (h.grounds s o)
  simp only [History.grounds, Verdict.ofGrounds_cons]
  rfl

/-! ### Runs of the rules -/

/-- What can happen to the rules: an observation, or a sweep from outside. -/
inductive RuleStep where
  | observe (o : Observation)
  | evictIdle (now : Instant)

namespace RuleStep

/-- When the step happens. -/
def time : RuleStep → Instant
  | observe o => o.time
  | evictIdle now => now

/-- The observation, if the step is one. -/
def observed? : RuleStep → Option Observation
  | observe o => some o
  | evictIdle _ => none

end RuleStep

namespace RuleDetector

/-- The verdicts of the rules in a run. -/
def verdicts (d : RuleDetector) : List RuleStep → List Verdict
  | [] => []
  | .observe o :: rest =>
    let (verdict, d) := d.observe o.event o.time
    verdict :: d.verdicts rest
  | .evictIdle now :: rest => (d.evictIdle now).2.verdicts rest

/-- The windows that a sweep leaves. -/
theorem get?_windows_evictIdle {d : RuleDetector} (hkeyed : d.windows.Keyed) (now : Instant)
    (key : WindowKey) :
    (d.evictIdle now).2.windows.get? key = (d.windows.get? key).filter fun w =>
      !WindowStore.isIdle now (d.settings.duration .windowTtl) w :=
  WindowStore.get?_evictIdle hkeyed now _ (fun _ => false) key

/-- The windows after an observation, which is recorded after a sweep if one is due. -/
theorem get?_windows_observe (d : RuleDetector) (o : Observation) (key : WindowKey) :
    (d.observe o.event o.time).2.windows.get? key =
      if key = o.event.windowKey then
        some (((d.sweep o.time).windows.getOr o.event.windowKey
          ((d.sweep o.time).freshWindow o.time)).record o.event o.time)
      else (d.sweep o.time).windows.get? key :=
  WindowStore.get?_put _ _ _ _

/-- The rules keep what counts of a history, at a time. -/
structure Tracks (d : RuleDetector) (s : Settings) (h : History) (now : Instant) : Prop where
  settings : d.settings = s
  keyed : d.windows.Keyed
  ordered : h.Ordered
  past : h.Until now
  /-- The window of a key follows what has been observed of the key. -/
  kept : ∀ key w, d.windows.get? key = some w →
    w.Follows (h.ofKey key) (s.ruleWindow .rpsWindow) (s.ruleWindow .errorWindow) ∧ w.lastSeen ≤ now
  /-- Nothing that has been observed of a key without a window counts any more. -/
  gone : ∀ key, d.windows.get? key = none → (h.ofKey key).Expired now (s.duration .windowTtl)

/-- No window is dropped while something in it may still count. -/
def Patient (s : Settings) : Prop :=
  s.ruleWindow .rpsWindow ≤ s.duration .windowTtl ∧
    s.ruleWindow .errorWindow ≤ s.duration .windowTtl

variable {s : Settings} {d : RuleDetector} {h : History} {now : Instant}

theorem ruleWindow_nonneg (s : Settings) (span : Span) : 0 ≤ s.ruleWindow span :=
  Int.le_trans (by decide) (Int.le_max_right ..)

theorem tracks_start (s : Settings) (now : Instant) (t : Instant) :
    (start s now).Tracks s [] t where
  settings := rfl
  keyed := WindowStore.keyed_empty
  ordered := List.Pairwise.nil
  past := fun _ ho => absurd ho List.not_mem_nil
  kept := fun _ _ hw => by cases hw
  gone := fun _ _ _ ho => absurd ho List.not_mem_nil

/-- The clock has moved on. -/
theorem Tracks.later (hd : d.Tracks s h now) {t : Instant} (ht : now ≤ t) : d.Tracks s h t where
  settings := hd.settings
  keyed := hd.keyed
  ordered := hd.ordered
  past := fun o ho => Int.le_trans (hd.past o ho) ht
  kept := fun key w hw => (hd.kept key w hw).imp_right fun hle => Int.le_trans hle ht
  gone := fun key hnone => (hd.gone key hnone).mono ht (Int.le_refl _)

/-- A window that has been idle for too long holds nothing that counts. -/
theorem Tracks.evictIdle (hd : d.Tracks s h now) : (d.evictIdle now).2.Tracks s h now := by
  have hkeyed := hd.keyed.evictIdle now (d.settings.duration .windowTtl) fun _ => false
  refine ⟨hd.settings, hkeyed, hd.ordered, hd.past, fun key w hw => ?_, fun key hnone => ?_⟩
  · rw [get?_windows_evictIdle hd.keyed] at hw
    exact hd.kept key w (Option.eq_some_of_filter_eq_some hw)
  · rw [get?_windows_evictIdle hd.keyed, hd.settings] at hnone
    cases hw : d.windows.get? key with
    | none => exact hd.gone key hw
    | some w =>
      rw [hw, Option.filter_eq_none_iff] at hnone
      have hidle : WindowStore.isIdle now (s.duration .windowTtl) w = true := by
        simpa using hnone w rfl
      have hidle : s.duration .windowTtl < now - w.lastSeen := of_decide_eq_true hidle
      intro o ho
      have := (hd.kept key w hw).1.seen o ho
      lia

theorem Tracks.sweep (hd : d.Tracks s h now) : (d.sweep now).Tracks s h now := by
  unfold RuleDetector.sweep
  split
  · have hd := hd.evictIdle
    exact ⟨hd.settings, hd.keyed, hd.ordered, hd.past, hd.kept, hd.gone⟩
  · exact hd

/-- The window in which an event is recorded follows what has been observed of its key, also when it
had to be made. -/
theorem Tracks.getOr (hd : d.Tracks s h now) (hs : Patient s) (key : WindowKey) :
    (d.windows.getOr key (d.freshWindow now)).Follows (h.ofKey key) (s.ruleWindow .rpsWindow)
      (s.ruleWindow .errorWindow) ∧ (d.windows.getOr key (d.freshWindow now)).lastSeen ≤ now := by
  unfold WindowStore.getOr
  cases hw : d.windows.get? key with
  | some w => exact hd.kept key w hw
  | none =>
    have hgone := hd.gone key hw
    have hfollows := Window.follows_fresh (hgone.mono (Int.le_refl now) hs.1)
      (hgone.mono (Int.le_refl now) hs.2) (hd.past.ofKey key)
    rw [← hd.settings] at hfollows ⊢
    exact ⟨hfollows, Int.le_refl now⟩

/-- **One observation**: the verdict is that of the history, which is tracked on. -/
theorem Tracks.observe (hs : Patient s) {o : Observation} (hd : d.Tracks s h o.time) :
    (d.observe o.event o.time).1 = (History.ofKey (h ++ [o]) o.event.windowKey).verdict s o ∧
      (d.observe o.event o.time).2.Tracks s (h ++ [o]) o.time := by
  have hswept := hd.sweep
  obtain ⟨hfollows, hseen⟩ := hswept.getOr hs o.event.windowKey
  have hrecord := hfollows.record (hd.ordered.ofKey _) hseen (ruleWindow_nonneg s _)
    (ruleWindow_nonneg s _)
  rw [← History.ofKey_snoc_self] at hrecord
  constructor
  · refine .trans ?_ ((congrArg (s.judge o.event) hrecord.counts_eq).trans (s.judge_counts _ o))
    rw [← hswept.settings]
    rfl
  · refine ⟨hswept.settings, hswept.keyed.put _ _, hd.ordered.snoc hd.past, hd.past.snoc,
      fun key w hw => ?_, fun key hnone => ?_⟩
    · rw [get?_windows_observe] at hw
      -- the history of another key has not grown
      split at hw
      · cases hw
        subst key
        exact ⟨hrecord, Int.le_refl _⟩
      · rw [History.ofKey_snoc_of_ne ‹_›]
        exact hswept.kept key w hw
    · rw [get?_windows_observe] at hnone
      split at hnone
      · cases hnone
      · rw [History.ofKey_snoc_of_ne ‹_›]
        exact hswept.gone key hnone

theorem Tracks.verdicts_eq (hs : Patient s) {steps : List RuleStep} :
    ∀ {d : RuleDetector} {h : History} {now : Instant}, d.Tracks s h now →
      (∀ step ∈ steps, now ≤ step.time) → steps.Pairwise (fun a b => a.time ≤ b.time) →
      d.verdicts steps = History.verdicts s h (steps.filterMap RuleStep.observed?) := by
  induction steps with
  | nil => exact fun _ _ _ => rfl
  | cons step rest ih =>
    intro d h now hd hlater hordered
    obtain ⟨hfirst, hrest⟩ := List.pairwise_cons.mp hordered
    have hd := hd.later (hlater step List.mem_cons_self)
    cases step with
    | observe o =>
      obtain ⟨hverdict, hkept⟩ := hd.observe hs
      exact congrArg₂ List.cons hverdict (ih hkept hfirst hrest)
    | evictIdle t => exact ih hd.evictIdle hfirst hrest

/-- **The rules say what the history says.** On a clock that never steps back, and when no window is
dropped before it is as old as both rule windows, every verdict is the one that can be read off the
observations up to it.  Windows being made, emptied and swept out leave no trace. -/
theorem verdicts_eq_history (s : Settings) (started : Instant) (steps : List RuleStep)
    (hrps : s.ruleWindow .rpsWindow ≤ s.duration .windowTtl)
    (herror : s.ruleWindow .errorWindow ≤ s.duration .windowTtl)
    (hclock : steps.Pairwise fun a b => a.time ≤ b.time) :
    (start s started).verdicts steps =
      History.verdicts s [] (steps.filterMap RuleStep.observed?) := by
  cases steps with
  | nil => rfl
  | cons step rest =>
    refine (tracks_start s started step.time).verdicts_eq ⟨hrps, herror⟩ (fun a ha => ?_) hclock
    rcases List.mem_cons.mp ha with rfl | ha
    · exact Int.le_refl _
    · exact (List.pairwise_cons.mp hclock).1 a ha

/-- A hit of the firewall counts for a minute, and not after the sweep of its window. -/
def hitAndSweep : List RuleStep :=
  let event (hit : Bool) : Event := ⟨some "alice", 1.0, 200, false, hit, "GET", "/", 3.0⟩
  [.observe ⟨event true, 1000000000⟩, .observe ⟨event false, 61000000000⟩, .evictIdle 700000000000,
    .observe ⟨event false, 700000000000⟩]

theorem verdicts_hitAndSweep :
    (start (.usual 1) 0).verdicts hitAndSweep =
        History.verdicts (.usual 1) [] (hitAndSweep.filterMap RuleStep.observed?) ∧
      History.verdicts (.usual 1) [] (hitAndSweep.filterMap RuleStep.observed?) =
        [.anomaly .wafSpike, .anomaly .wafSpike, .normal] :=
  ⟨verdicts_eq_history (.usual 1) 0 hitAndSweep (by decide) (by decide) (by decide), by decide +kernel⟩

end RuleDetector

end TrafficWatch
