import TrafficWatch.Failure
import TrafficWatch.Proofs.Baseline.Quantile
import TrafficWatch.Proofs.Double.Compare
import TrafficWatch.Proofs.Settings.Validity

/-!
# Settings — Exactness

The check of settings against what sound settings are in numbers that know no bounds
(`Settings.check_exact`).  Minutes become seconds in a machine word, where what does not fit is the
greatest word; that is still too long to be set, so nothing is accepted that should not be, and below
the cap on all lengths of time the seconds are exact.  A share is one by its value, so neither what is
not a number nor an infinity is one, and both zeros are.
-/

namespace TrafficWatch

/-- What the message about a flaw begins with: the name of the setting at fault. -/
def Flaw.subject : Flaw → String
  | noQueue => "feature_queue_capacity"
  | noRuleWindow => "rule windows"
  | shareOutOfRange _ => "score_quantile"
  | noBaseline => "baseline_sample_size"
  | capBelowBaseline _ _ => "baseline_hard_cap"
  | noRank => "pca_rank"
  | noScorer => "scorer_pool_size"
  | noRetrainInterval => "retrain_interval_minutes"
  | tooLong span => span.settingName
  | badVarianceGuard => "min_variance_guard"

/-- Every message names the setting at fault. -/
theorem Flaw.exists_message_eq (f : Flaw) : ∃ rest, f.message = f.subject ++ rest := by
  cases f with
  | noQueue | noBaseline | noRank | noScorer | noRetrainInterval =>
      exact ⟨" must be greater than 0", by decide +kernel⟩
  | noRuleWindow => exact ⟨" must be at least 1 second", by decide +kernel⟩
  | badVarianceGuard => exact ⟨" must be a non-negative number", by decide +kernel⟩
  | shareOutOfRange share =>
      have hfirst : "score_quantile must be within [0, 1], got " =
          "score_quantile" ++ " must be within [0, 1], got " := by decide +kernel
      refine ⟨" must be within [0, 1], got " ++ Decimal.Layout.plain.text share, ?_⟩
      rw [subject, ← String.append_assoc, ← hfirst]
      rfl
  | capBelowBaseline cap size =>
      have hfirst : "baseline_hard_cap (" = "baseline_hard_cap" ++ " (" := by decide +kernel
      refine ⟨" (" ++ (toString cap ++ (") is smaller than baseline_sample_size (" ++
        (toString size ++ ")"))), ?_⟩
      rw [subject, ← String.append_assoc, ← hfirst, ← String.append_assoc, ← String.append_assoc,
        ← String.append_assoc]
      rfl
  | tooLong span =>
      refine ⟨" exceeds the maximum of " ++ (toString Settings.maxSeconds ++ " seconds"), ?_⟩
      rw [subject, ← String.append_assoc, ← String.append_assoc]
      rfl

namespace Settings

/-! ### What sound settings are -/

/-- The seconds of a length of time as it was set, however many. -/
def exactSeconds (s : Settings) : Span → Nat
  | .rpsWindow => s.rpsWindowSeconds
  | .errorWindow => s.errorWindowSeconds
  | .windowTtl => s.windowTtlSeconds
  | .pruneInterval => s.pruneIntervalSeconds
  | .trainingWindow => 60 * s.trainingWindowMinutes
  | .retrainInterval => 60 * s.retrainIntervalMinutes
  | .shutdownGrace => s.shutdownGraceSeconds

/-- A number from zero to one. -/
def IsFraction (x : Float) : Prop :=
  x.isFinite = true ∧ 0 ≤ Double.value x ∧ Double.value x ≤ 1

/-- A finite number that is not below zero. -/
def IsVariance (x : Float) : Prop :=
  x.isFinite = true ∧ 0 ≤ Double.value x

/-- Settings with which the detectors can run. -/
structure IsSound (s : Settings) : Prop where
  queue : 1 ≤ s.queueCapacity
  rpsWindow : 1 ≤ s.rpsWindowSeconds
  errorWindow : 1 ≤ s.errorWindowSeconds
  rank : 1 ≤ s.rank
  scorers : 1 ≤ s.scorerPoolSize
  retrainInterval : 1 ≤ s.retrainIntervalMinutes
  baseline : 1 ≤ s.baselineSize
  room : s.baselineSize ≤ s.baselineCap
  lengths : ∀ span, s.exactSeconds span ≤ maxSeconds
  share : IsFraction s.scoreQuantile
  variance : IsVariance s.minVariance

/-- Whether settings have a flaw. -/
def Has (s : Settings) : Flaw → Prop
  | .noQueue => s.queueCapacity < 1
  | .noRuleWindow => s.rpsWindowSeconds < 1 ∨ s.errorWindowSeconds < 1
  | .shareOutOfRange share => share = s.scoreQuantile ∧ ¬ IsFraction share
  | .noBaseline => s.baselineSize < 1
  | .capBelowBaseline cap size => cap = s.baselineCap ∧ size = s.baselineSize ∧ cap < size
  | .noRank => s.rank < 1
  | .noScorer => s.scorerPoolSize < 1
  | .noRetrainInterval => s.retrainIntervalMinutes < 1
  | .tooLong span => maxSeconds < s.exactSeconds span
  | .badVarianceGuard => ¬ IsVariance s.minVariance

/-- The flaws that settings may have, in the order in which they are looked for. -/
def flaws (s : Settings) : List Flaw :=
  [.noQueue, .noRuleWindow, .shareOutOfRange s.scoreQuantile, .noBaseline,
    .capBelowBaseline s.baselineCap s.baselineSize, .noRank, .noScorer, .noRetrainInterval,
    .tooLong .rpsWindow, .tooLong .errorWindow, .tooLong .windowTtl, .tooLong .pruneInterval,
    .tooLong .trainingWindow, .tooLong .retrainInterval, .tooLong .shutdownGrace,
    .badVarianceGuard]

/-- A flaw that settings have, while they have none of those before it. -/
def IsFirstFlaw (s : Settings) (f : Flaw) : Prop :=
  ∃ before after, s.flaws = before ++ f :: after ∧ s.Has f ∧ ∀ g ∈ before, ¬ s.Has g

variable {s : Settings}

/-- Settings are sound exactly when they have none of the flaws. -/
theorem isSound_iff : s.IsSound ↔ ∀ f ∈ s.flaws, ¬ s.Has f := by
  simp only [flaws, List.forall_mem_cons, List.not_mem_nil, Has, true_and]
  constructor
  · rintro ⟨hqueue, hrps, herror, hrank, hscorers, hinterval, hbaseline, hroom, hlengths, hshare,
      hvariance⟩
    have hspan (span : Span) := Nat.not_lt.mpr (hlengths span)
    exact ⟨by omega, by omega, fun h => h hshare, by omega, by omega, by omega, by omega, by omega,
      hspan _, hspan _, hspan _, hspan _, hspan _, hspan _, hspan _, fun h => h hvariance, nofun⟩
  · rintro ⟨hqueue, hwindows, hshare, hbaseline, hroom, hrank, hscorers, hinterval, hrps, herror, httl,
      hprune, htraining, hretrain, hgrace, hvariance, -⟩
    refine ⟨by omega, by omega, by omega, by omega, by omega, by omega, by omega, by omega,
      fun span => ?_, ?_, not_not.mp hvariance⟩
    · cases span <;> exact Nat.not_lt.mp ‹_›
    · exact not_not.mp hshare

/-! ### Numbers -/

theorem isShare_iff_isFraction {x : Float} : isShare x = true ↔ IsFraction x := by
  have hzero : Float.isFinite 0.0 = true := rfl
  have hone : Float.isFinite 1.0 = true := rfl
  rw [isShare_iff, IsFraction, ← Double.value_one]
  constructor
  · rintro ⟨hlow, hhigh⟩
    have hx := Double.isFinite_of_share hlow hhigh
    exact ⟨hx, (Double.le_iff_value hzero hx).mp hlow, (Double.le_iff_value hx hone).mp hhigh⟩
  · rintro ⟨hx, hlow, hhigh⟩
    exact ⟨(Double.le_iff_value hzero hx).mpr hlow, (Double.le_iff_value hx hone).mpr hhigh⟩

theorem isVariance_iff {x : Float} : (!x.isFinite || x < 0.0) = false ↔ IsVariance x := by
  have hzero : Float.isFinite 0.0 = true := rfl
  rw [Bool.or_eq_false_iff, Bool.not_eq_false', decide_eq_false_iff_not]
  refine and_congr_right fun hx => ?_
  rw [Double.lt_iff_value hx hzero, Double.value_zero, not_lt]

/-- Minutes that do not fit into a word as seconds are as many seconds as they are, or too many. -/
theorem secondsOfMinutes_spec (minutes : Nat) :
    secondsOfMinutes minutes = 60 * minutes ∨
      maxSeconds < secondsOfMinutes minutes ∧ maxSeconds < 60 * minutes := by
  have hword : twoTo 64 = 18446744073709551616 := by decide
  unfold secondsOfMinutes maxSeconds
  omega

/-- The seconds that were set are those that are held, or both are too many. -/
theorem givenSeconds_spec (s : Settings) (span : Span) :
    s.givenSeconds span = s.exactSeconds span ∨
      maxSeconds < s.givenSeconds span ∧ maxSeconds < s.exactSeconds span := by
  cases span with
  | trainingWindow | retrainInterval => exact secondsOfMinutes_spec _
  | rpsWindow | errorWindow | windowTtl | pruneInterval | shutdownGrace => exact .inl rfl

theorem maxSeconds_lt_givenSeconds (s : Settings) (span : Span) :
    maxSeconds < s.givenSeconds span ↔ maxSeconds < s.exactSeconds span := by
  have h := s.givenSeconds_spec span
  omega

/-- **Lengths of time are exact up to the cap.** -/
theorem seconds_eq (s : Settings) (span : Span) :
    s.seconds span = min (s.exactSeconds span) maxSeconds := by
  have h := s.givenSeconds_spec span
  unfold seconds
  omega

/-! ### The rules -/

/-- **A rule is broken exactly when settings have the flaw it is about.** -/
theorem broken_iff (s : Settings) : ∀ rule ∈ s.rules, (rule.1 = true ↔ s.Has rule.2) := by
  have hzero (n : Nat) : (n == 0) = true ↔ n < 1 := by rw [beq_iff_eq, Nat.lt_one_iff]
  have hspan (span : Span) := decide_eq_true_iff.trans (s.maxSeconds_lt_givenSeconds span)
  have hwindows : (s.rpsWindowSeconds == 0 || s.errorWindowSeconds == 0) = true ↔
      s.Has .noRuleWindow := by
    rw [Bool.or_eq_true, hzero, hzero, Has]
  have hshare : (!isShare s.scoreQuantile) = true ↔ s.Has (.shareOutOfRange s.scoreQuantile) := by
    rw [Has, eq_self, true_and, Bool.not_eq_true', ← isShare_iff_isFraction, Bool.not_eq_true]
  have hroom : decide (s.baselineCap < s.baselineSize) = true ↔
      s.Has (.capBelowBaseline s.baselineCap s.baselineSize) := by
    rw [decide_eq_true_iff, Has, eq_self, eq_self, true_and, true_and]
  have hvariance : (!s.minVariance.isFinite || s.minVariance < 0.0) = true ↔
      s.Has .badVarianceGuard := by
    rw [Has, ← isVariance_iff, Bool.not_eq_false]
  simp only [rules, Span.all, List.map_cons, List.map_nil, List.cons_append, List.nil_append,
    List.forall_mem_cons, List.not_mem_nil]
  exact ⟨hzero _, hwindows, hshare, hzero _, hroom, hzero _, hzero _, hzero _, hspan _, hspan _,
    hspan _, hspan _, hspan _, hspan _, hspan _, hvariance, fun _ h => h.elim⟩

theorem map_rules (s : Settings) : s.rules.map (·.2) = s.flaws :=
  rfl

/-- **Settings can be run exactly if they are sound.** -/
theorem flaw?_eq_none_iff_isSound : s.flaw? = none ↔ s.IsSound := by
  rw [flaw?_eq_none, isSound_iff, ← map_rules, List.forall_mem_map]
  refine forall₂_congr fun rule hrule => ?_
  rw [← s.broken_iff rule hrule, Bool.not_eq_true]

/-- **The flaw that is found is the first one.** -/
theorem flaw?_eq_some_iff {f : Flaw} : s.flaw? = some f ↔ s.IsFirstFlaw f := by
  rw [flaw?, Option.map_eq_some_iff]
  constructor
  · rintro ⟨rule, hfind, rfl⟩
    obtain ⟨hbroken, before, after, hrules, hbefore⟩ := List.find?_eq_some_iff_append.mp hfind
    have hmem (r : Bool × Flaw) (h : r ∈ before ++ rule :: after) := s.broken_iff r (hrules ▸ h)
    refine ⟨before.map (·.2), after.map (·.2), ?_, (hmem rule (by simp)).mp hbroken, ?_⟩
    · rw [← map_rules, hrules, List.map_append, List.map_cons]
    · rw [List.forall_mem_map]
      intro r hr hhas
      have hr' := (hmem r (List.mem_append_left _ hr)).mpr hhas
      exact absurd hr' (by simpa using hbefore r hr)
  · rintro ⟨before, after, hflaws, hhas, hbefore⟩
    rw [← map_rules] at hflaws
    obtain ⟨rules₁, rest, hrules, rfl, hrest⟩ := List.map_eq_append_iff.mp hflaws
    obtain ⟨rule, rules₂, rfl, rfl, -⟩ := List.map_eq_cons_iff.mp hrest
    have hmem (r : Bool × Flaw) (h : r ∈ rules₁ ++ rule :: rules₂) := s.broken_iff r (hrules ▸ h)
    refine ⟨rule, List.find?_eq_some_iff_append.mpr ⟨?_, rules₁, rules₂, hrules, fun r hr => ?_⟩, rfl⟩
    · exact (hmem rule (by simp)).mpr hhas
    · have hnot := mt (hmem r (List.mem_append_left _ hr)).mp (hbefore _ (List.mem_map_of_mem hr))
      rw [Bool.not_eq_true']
      exact Bool.eq_false_iff.mpr hnot

/-! ### Lengths of time -/

/-- A length of time fits into a signed word. -/
theorem toInt_seconds (s : Settings) (span : Span) :
    (Int64.ofNat (s.seconds span)).toInt = s.seconds span := by
  have h : s.seconds span ≤ maxSeconds := Nat.min_le_right _ _
  refine Int64.toInt_ofNat_of_lt ?_
  unfold maxSeconds at h
  omega

/-- **The check of settings is exact, and so are their lengths of time.** Settings have no flaw that is
found exactly if they are sound, as the numbers are that were set.  The flaw that is found is the first
one that settings have, and the text of the failure names it.  A length of time is what was set, or the
cap if that is less; it fits into a signed word, and it is what was set if the settings are sound. -/
theorem check_exact (s : Settings) :
    (s.flaw? = none ↔ s.IsSound) ∧
    (∀ f, s.flaw? = some f ↔ s.IsFirstFlaw f) ∧
    (∀ f, s.flaw? = some f → (Failure.settings f).kind? = some .invalidConfiguration ∧
      (Failure.settings f).text = "Invalid configuration: " ++ f.message ∧
      ∃ rest, f.message = f.subject ++ rest) ∧
    (∀ span, s.seconds span = min (s.exactSeconds span) maxSeconds ∧
      (Int64.ofNat (s.seconds span)).toInt = s.seconds span ∧
      s.duration span = 1000000000 * min (s.exactSeconds span) maxSeconds) ∧
    (s.flaw? = none → ∀ span, s.seconds span = s.exactSeconds span ∧
      s.duration span = 1000000000 * s.exactSeconds span) := by
  have hduration (span : Span) : s.duration span = 1000000000 * s.seconds span := Int.mul_comm _ _
  refine ⟨flaw?_eq_none_iff_isSound, fun f => flaw?_eq_some_iff,
    fun f _ => ⟨rfl, rfl, f.exists_message_eq⟩,
    fun span => ⟨s.seconds_eq span, s.toInt_seconds span, ?_⟩, fun h span => ?_⟩
  · rw [hduration, seconds_eq]
  · have hlength := (flaw?_eq_none_iff_isSound.mp h).lengths span
    have hseconds : s.seconds span = s.exactSeconds span := by
      rw [seconds_eq, Nat.min_eq_left hlength]
    exact ⟨hseconds, by rw [hduration, hseconds]⟩

/-- Settings at their limits: lengths of time of a year, and zeros with a sign. -/
def atLimits : Settings :=
  { Settings.usual 1 with
    windowTtlSeconds := 31536000, trainingWindowMinutes := 525600, scoreQuantile := -0.0,
    minVariance := -0.0 }

/-- The same with so many minutes that their seconds, counted round a machine word, come out as none. -/
def beyondLimits : Settings :=
  { atLimits with trainingWindowMinutes := 2 ^ 63 }

/-- At the limits settings can be run.  Beyond them the window of training is too long, and it lasts a
year. -/
theorem check_exact_limits :
    atLimits.flaw? = none ∧ atLimits.duration .trainingWindow = 31536000 * 1000000000 ∧
      beyondLimits.flaw? = some (.tooLong .trainingWindow) ∧
      (Failure.settings (.tooLong .trainingWindow)).kind? = some .invalidConfiguration ∧
      beyondLimits.seconds .trainingWindow = 31536000 := by
  have hsound : atLimits.flaw? = none := Option.isNone_iff_eq_none.mp (by decide +kernel)
  obtain ⟨-, hfirst, hfailure, hlengths, -⟩ := check_exact beyondLimits
  have hflaw : beyondLimits.flaw? = some (.tooLong .trainingWindow) := by
    have hshare : IsFraction beyondLimits.scoreQuantile :=
      isShare_iff_isFraction.mp (by decide +kernel)
    refine (hfirst _).mpr ⟨beyondLimits.flaws.take 12, beyondLimits.flaws.drop 13, rfl, ?_, ?_⟩
    · rw [Has]
      decide
    · simp only [flaws, List.take_succ_cons, List.take_zero, List.forall_mem_cons, Has,
        List.not_mem_nil, false_imp_iff, implies_true]
      exact ⟨by decide, by decide, fun h => h.2 hshare, by decide⟩
  exact ⟨hsound, ((check_exact atLimits).2.2.2.2 hsound .trainingWindow).2, hflaw,
    (hfailure _ hflaw).1, (hlengths .trainingWindow).1⟩

end Settings

end TrafficWatch
