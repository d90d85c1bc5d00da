import TrafficWatch.Proofs.Rules.Verdict
import TrafficWatch.Settings.Validity

/-!
# Rules — Isolation

Whether the traffic of others can change a verdict.  The verdicts of the full history cannot be
changed: those on one key are the verdicts on the observations of that key alone
(`History.verdicts_ofKey`).  So nor can those of the rules, where the rules say what the history
says (`RuleDetector.Patient`).

Sound settings may be impatient, though: nothing demands that a window be kept as long as the rules
count.  When it is not, the traffic of others matters, because all keys share one schedule of sweeps.
A sweep that another key has brought forward leaves a window in place that a later one would have
taken away (`RuleDetector.disturbed_by_others`).
-/

namespace TrafficWatch

namespace History

/-- Of the answers to observations, those to the observations of one client on one route. -/
def answersOn (key : WindowKey) (h : History) (answers : List Verdict) : List Verdict :=
  ((h.zip answers).filter fun p => decide (p.1.event.windowKey = key)).map (·.2)

variable {key : WindowKey} {o : Observation}

theorem answersOn_cons_self (hkey : o.event.windowKey = key) (h : History) (v : Verdict)
    (rest : List Verdict) : answersOn key (o :: h) (v :: rest) = v :: answersOn key h rest := by
  simp [answersOn, hkey]

theorem answersOn_cons_of_ne (hkey : o.event.windowKey ≠ key) (h : History) (v : Verdict)
    (rest : List Verdict) : answersOn key (o :: h) (v :: rest) = answersOn key h rest := by
  simp [answersOn, hkey]

theorem ofKey_cons_self (hkey : o.event.windowKey = key) (h : History) :
    ofKey (o :: h) key = o :: h.ofKey key := by
  simp [ofKey, hkey]

theorem ofKey_cons_of_ne (hkey : o.event.windowKey ≠ key) (h : History) :
    ofKey (o :: h) key = h.ofKey key := by
  simp [ofKey, hkey]

theorem ofKey_ofKey (h : History) (key : WindowKey) : (h.ofKey key).ofKey key = h.ofKey key := by
  simp [ofKey]

/-- **The verdicts on a key** are those on the observations of that key alone. -/
theorem verdicts_ofKey (s : Settings) (key : WindowKey) (h : History) :
    ∀ before : History, answersOn key h (verdicts s before h) =
      verdicts s (before.ofKey key) (h.ofKey key) := by
  induction h with
  | nil => exact fun _ => rfl
  | cons o rest ih =>
    intro before
    by_cases hkey : o.event.windowKey = key
    · have hbefore : ofKey (before ++ [o]) key = before.ofKey key ++ [o] := by
        rw [← hkey]
        exact ofKey_snoc_self before o
      -- forgetting the others once more changes nothing
      have hverdict : verdict s (ofKey (before ++ [o]) key) o =
          verdict s (ofKey (before.ofKey key ++ [o]) key) o := by
        rw [← hbefore, ofKey_ofKey]
      rw [ofKey_cons_self hkey, verdicts, verdicts, answersOn_cons_self hkey, ih, hbefore, hkey,
        hverdict]
    · rw [ofKey_cons_of_ne hkey, verdicts, answersOn_cons_of_ne hkey, ih,
        ofKey_snoc_of_ne (Ne.symm hkey)]

end History

namespace RuleDetector

/-- What is observed in a run. -/
def observations (steps : List RuleStep) : History :=
  steps.filterMap RuleStep.observed?

/-- The verdicts of the rules on one client and route in a run. -/
def verdictsOn (d : RuleDetector) (key : WindowKey) (steps : List RuleStep) : List Verdict :=
  History.answersOn key (observations steps) (d.verdicts steps)

/-- A run on a clock that never steps back, not even behind the start. -/
def Forward (started : Instant) (steps : List RuleStep) : Prop :=
  (started :: steps.map RuleStep.time).Pairwise (· ≤ ·)

instance (started : Instant) (steps : List RuleStep) : Decidable (Forward started steps) :=
  inferInstanceAs (Decidable (List.Pairwise _ _))

/-- The verdicts of patient rules on a key are those of the history of that key. -/
theorem Patient.verdictsOn_eq {s : Settings} (hs : Patient s) {started : Instant}
    {steps : List RuleStep} (hclock : Forward started steps) (key : WindowKey) :
    (start s started).verdictsOn key steps =
      History.verdicts s [] ((observations steps).ofKey key) := by
  obtain ⟨hstart, hordered⟩ := List.pairwise_cons.mp hclock
  have hverdicts := (tracks_start s started started).verdicts_eq hs
    (fun step hstep => hstart step.time (List.mem_map_of_mem hstep)) (List.pairwise_map.mp hordered)
  rw [verdictsOn, hverdicts]
  exact History.verdicts_ofKey s key _ []

/-- **Patient rules isolate.** When no window is dropped before it is as old as both rule windows,
two runs that observe the same of a key give the same verdicts on it, whatever else they observe and
whenever they are swept from outside. -/
theorem verdicts_isolated (s : Settings) (started : Instant) (key : WindowKey)
    (first second : List RuleStep)
    (hrps : s.ruleWindow .rpsWindow ≤ s.duration .windowTtl)
    (herror : s.ruleWindow .errorWindow ≤ s.duration .windowTtl)
    (hfirst : Forward started first) (hsecond : Forward started second)
    (hsame : (observations first).ofKey key = (observations second).ofKey key) :
    (start s started).verdictsOn key first = (start s started).verdictsOn key second := by
  have hs : Patient s := ⟨hrps, herror⟩
  rw [hs.verdictsOn_eq hfirst, hs.verdictsOn_eq hsecond, hsame]

/-- A request that was not found, at some second. -/
def missAt (client : String) (second : Int) : RuleStep :=
  .observe ⟨⟨some client, 1.0, 404, false, false, "GET", "/", 3.0⟩, second * 1000000000⟩

/-- Two misses of one client, seven seconds apart. -/
def twoMisses : List RuleStep :=
  [missAt "alice" 15, missAt "alice" 22]

/-- The same misses, after one of another client. -/
def twoMissesAccompanied : List RuleStep :=
  missAt "bob" 11 :: twoMisses

/-- Rules that count client errors for a minute, and look every ten seconds for windows to drop. -/
def strictSettings : Settings :=
  { Settings.usual 1 with clientErrorThreshold := 1, pruneIntervalSeconds := 10 }

theorem verdicts_isolated_twoMisses :
    (start strictSettings 0).verdictsOn ⟨"alice", "/"⟩ twoMisses =
        (start strictSettings 0).verdictsOn ⟨"alice", "/"⟩ twoMissesAccompanied ∧
      (start strictSettings 0).verdictsOn ⟨"alice", "/"⟩ twoMisses =
        [.normal, .anomaly .clientErrorSpike] :=
  ⟨verdicts_isolated strictSettings 0 _ twoMisses twoMissesAccompanied (by decide) (by decide)
    (by decide) (by decide) rfl, by decide +kernel⟩

/-- The same rules, but a window is dropped when it has been idle for two seconds. -/
def impatientSettings : Settings :=
  { strictSettings with windowTtlSeconds := 2 }

/-- **Impatient rules do not isolate.** The settings are sound, both runs observe the same of one
client on a clock that never steps back, and yet a miss of another client takes the second verdict
away. -/
theorem disturbed_by_others :
    impatientSettings.flaw?.isNone = true ∧
      Forward 0 twoMisses ∧ Forward 0 twoMissesAccompanied ∧
      (observations twoMisses).ofKey ⟨"alice", "/"⟩ =
        (observations twoMissesAccompanied).ofKey ⟨"alice", "/"⟩ ∧
      (start impatientSettings 0).verdictsOn ⟨"alice", "/"⟩ twoMisses =
        [.normal, .anomaly .clientErrorSpike] ∧
      (start impatientSettings 0).verdictsOn ⟨"alice", "/"⟩ twoMissesAccompanied =
        [.normal, .normal] :=
  ⟨by decide +kernel, by decide, by decide, rfl, by decide +kernel, by decide +kernel⟩

end RuleDetector

end TrafficWatch
