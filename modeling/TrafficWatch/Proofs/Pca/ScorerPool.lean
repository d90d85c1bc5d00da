import TrafficWatch.Pca.ScorerPool

/-!
# Pca — Scorer pool

Where the scorers are that a pool has made, and what they answer.  Every scorer is lent, idle, or has
been thrown away because it came back to a full pool; each step keeps these books
(`Lending.Accounts.serve`).  A score is that of the model, whichever scorer gives it and whatever it has
scored before: the space is emptied before a vector is normalized in it (`Scorer.score_eq`).
-/

namespace TrafficWatch

/-! ### Scores -/

/-- **What a scorer has scored before does not show in a score.** -/
theorem Scorer.score_eq (s : Scorer) (m : PcaModel) (v : Features) :
    (s.score m v).1 = m.score v.toList := by
  have hscratch : (s.load m v).scratch = m.normalize v.toList := List.nil_append _
  change m.scoreNormalized (s.load m v).scratch = _
  rw [hscratch, Pca.score]

/-! ### Lending and giving back -/

namespace ScorerPool

variable {p : ScorerPool}

/-- Whether there is no room for a scorer that comes back. -/
def isFull (p : ScorerPool) : Bool :=
  p.capacity ≤ p.idle.length

@[simp]
theorem model_take (p : ScorerPool) : p.take.2.model = p.model := by
  unfold take
  split <;> rfl

@[simp]
theorem capacity_take (p : ScorerPool) : p.take.2.capacity = p.capacity := by
  unfold take
  split <;> rfl

/-- A scorer is made only when none is idle. -/
theorem created_take (p : ScorerPool) :
    p.take.2.created = p.created + if p.idle.isEmpty then 1 else 0 := by
  unfold take
  cases p.idle <;> rfl

theorem length_idle_take_le (p : ScorerPool) : p.take.2.idle.length ≤ p.idle.length := by
  unfold take
  cases p.idle with
  | nil => exact Nat.le_refl 0
  | cons s rest => exact Nat.le_succ _

/-- One scorer is taken from those that are idle, or one more is made. -/
theorem balance_take (p : ScorerPool) :
    p.take.2.created + p.idle.length = p.created + p.take.2.idle.length + 1 := by
  unfold take
  cases p.idle with
  | nil => rfl
  | cons s rest => exact (Nat.add_assoc _ _ _).symm

@[simp]
theorem model_giveBack (p : ScorerPool) (s : Scorer) : (p.giveBack s).model = p.model := by
  unfold giveBack
  split <;> rfl

@[simp]
theorem capacity_giveBack (p : ScorerPool) (s : Scorer) :
    (p.giveBack s).capacity = p.capacity := by
  unfold giveBack
  split <;> rfl

@[simp]
theorem created_giveBack (p : ScorerPool) (s : Scorer) : (p.giveBack s).created = p.created := by
  unfold giveBack
  split <;> rfl

theorem length_idle_giveBack_le (s : Scorer) (h : p.idle.length ≤ p.capacity) :
    (p.giveBack s).idle.length ≤ p.capacity := by
  unfold giveBack
  split
  · rw [List.length_append]
    assumption
  · exact h

/-- A scorer that comes back is idle, or is thrown away because the pool is full. -/
theorem balance_giveBack (p : ScorerPool) (s : Scorer) :
    (p.giveBack s).idle.length + (if p.isFull then 1 else 0) = p.idle.length + 1 := by
  unfold giveBack isFull
  by_cases h : p.idle.length < p.capacity
  · simp [h]
  · simp [h, Nat.not_lt.mp h]

/-- What scorers have left in a pool does not show in a score. -/
theorem score_eq (p : ScorerPool) (v : Features) : (p.score v).1 = p.model.score v.toList := by
  change (p.take.1.score p.take.2.model v).1 = _
  rw [Scorer.score_eq, model_take]

/-- **Where the scorers are** that a pool of a model has made: so many are lent, so many have been
thrown away, and the others are idle. -/
structure Accounts (model : PcaModel) (room held discarded : Nat) (p : ScorerPool) : Prop where
  model : p.model = model
  capacity : p.capacity = room
  size : p.idle.length ≤ room
  created : p.created = held + p.idle.length + discarded

variable {model : PcaModel} {room held discarded : Nat}

theorem accounts_empty (model : PcaModel) (capacity : Nat) :
    Accounts model (max capacity 1) 0 0 (empty model capacity) :=
  ⟨rfl, rfl, Nat.zero_le _, rfl⟩

theorem Accounts.take (h : Accounts model room held discarded p) :
    Accounts model room (held + 1) discarded p.take.2 where
  model := p.model_take.trans h.model
  capacity := p.capacity_take.trans h.capacity
  size := Nat.le_trans p.length_idle_take_le h.size
  created := by
    have hbalance := p.balance_take
    have hcreated := h.created
    omega

theorem Accounts.giveBack (h : Accounts model room (held + 1) discarded p) (s : Scorer) :
    Accounts model room held (discarded + if p.isFull then 1 else 0) (p.giveBack s) where
  model := (p.model_giveBack s).trans h.model
  capacity := (p.capacity_giveBack s).trans h.capacity
  size := by
    rw [← h.capacity]
    exact length_idle_giveBack_le s (h.capacity ▸ h.size)
  created := by
    have hbalance := p.balance_giveBack s
    have hcreated := h.created
    rw [created_giveBack]
    omega

end ScorerPool

/-! ### Steps -/

/-- What can be asked of a pool and of the scorers that are lent. -/
inductive LendingStep where
  | take
  /-- The scorer with the given number comes back. -/
  | release (index : Nat)
  | score (v : Features)
  /-- A score through the scorer with the given number. -/
  | scoreHeld (index : Nat) (v : Features)

/-- Whether a scorer is taken from the pool in a step, be it for one score. -/
def LendingStep.takes : LendingStep → Bool
  | take | score _ => true
  | release _ | scoreHeld .. => false

namespace Lending

/-- A pool and the scorers that are lent, after a step. -/
def serve (l : Lending) : LendingStep → Lending
  | .take => l.take
  | .release index => l.release index
  | .score v => (l.score v).2
  | .scoreHeld index v => ((l.scoreHeld index v).map (·.2)).getD l

/-- How many scorers come back to a full pool in a step. -/
def discarded (l : Lending) : LendingStep → Nat
  | .release index => if index < l.held.length && l.pool.isFull then 1 else 0
  | .score _ => if l.pool.take.2.isFull then 1 else 0
  | .take | .scoreHeld .. => 0

/-- A pool and the scorers that are lent, after steps. -/
def serveAll (l : Lending) (steps : List LendingStep) : Lending :=
  steps.foldl serve l

/-- How many scorers have come back to a full pool in steps. -/
def discardedAll (l : Lending) : List LendingStep → Nat
  | [] => 0
  | step :: rest => l.discarded step + (l.serve step).discardedAll rest

variable {model : PcaModel} {room discarded : Nat} {l : Lending}

theorem created_serve (l : Lending) (step : LendingStep) :
    (l.serve step).pool.created =
      l.pool.created + if step.takes && l.pool.idle.isEmpty then 1 else 0 := by
  cases step with
  | take => exact l.pool.created_take
  | release index =>
      change (l.release index).pool.created = _
      unfold release
      split
      · exact l.pool.created_giveBack _
      · rfl
  | score v => exact (ScorerPool.created_giveBack _ _).trans l.pool.created_take
  | scoreHeld index v =>
      change (((l.scoreHeld index v).map (·.2)).getD l).pool.created = _
      unfold scoreHeld
      cases l.held[index]? <;> rfl

/-- The pool keeps its books, and as many scorers are lent as it has given out. -/
def Accounts (model : PcaModel) (room discarded : Nat) (l : Lending) : Prop :=
  l.pool.Accounts model room l.held.length discarded

/-- **One step keeps the books.** -/
theorem Accounts.serve (h : Accounts model room discarded l) (step : LendingStep) :
    Accounts model room (discarded + l.discarded step) (l.serve step) := by
  cases step with
  | take =>
      have hheld : l.take.held.length = l.held.length + 1 := List.length_append
      rw [Accounts, Lending.serve, hheld]
      exact ScorerPool.Accounts.take h
  | release index =>
      by_cases hindex : index < l.held.length
      · have hheld : l.held.length = (l.held.eraseIdx index).length + 1 := by
          rw [List.length_eraseIdx_of_lt hindex]
          omega
        rw [Accounts, hheld] at h
        simp only [Lending.serve, Lending.release, Lending.discarded, List.getElem?_eq_getElem hindex,
          hindex, decide_true, Bool.true_and]
        exact h.giveBack _
      · simp only [Lending.serve, Lending.release, Lending.discarded, hindex, decide_false,
          Bool.false_and, List.getElem?_eq_none (Nat.not_lt.mp hindex)]
        exact h
  | score v =>
      -- the scorer is lent only as long as it scores
      exact (ScorerPool.Accounts.take h).giveBack _
  | scoreHeld index v =>
      simp only [Lending.serve, Lending.scoreHeld, Lending.discarded]
      cases l.held[index]? with
      | none => exact h
      | some s =>
          have hheld : (l.held.set index (s.score l.pool.model v).2).length = l.held.length :=
            List.length_set
          change l.pool.Accounts model room (l.held.set index (s.score l.pool.model v).2).length _
          rw [hheld]
          exact h

theorem Accounts.serveAll (h : Accounts model room discarded l) (steps : List LendingStep) :
    Accounts model room (discarded + l.discardedAll steps) (l.serveAll steps) := by
  induction steps generalizing l discarded with
  | nil => exact h
  | cons step rest ih =>
      rw [discardedAll, ← Nat.add_assoc]
      exact ih (h.serve step)

/-- **Every scorer is accounted for, and every score is that of the model.** Let scorers of a model be
taken from a pool of any capacity, come back in any order, and score anything, lent or for one score
only.  At every moment no more scorers are idle than there is room for, and those that have been made
are lent, or idle, or have come back to a full pool.  The next step makes a scorer exactly if it takes
one while none is idle; and whatever scores next, through the pool or through any scorer that is lent,
gives the score of the model. -/
theorem scorers_accounted (model : PcaModel) (capacity : Nat) (steps : List LendingStep) :
    let start := Lending.start model capacity
    let l := start.serveAll steps
    l.pool.idle.length ≤ max capacity 1 ∧
    l.pool.created = l.held.length + l.pool.idle.length + start.discardedAll steps ∧
    (∀ step, (l.serve step).pool.created =
      l.pool.created + if step.takes && l.pool.idle.isEmpty then 1 else 0) ∧
    ∀ v, (l.score v).1 = model.score v.toList ∧
      ∀ index, (l.scoreHeld index v).map (·.1) =
        if index < l.held.length then some (model.score v.toList) else none := by
  intro start l
  have hstart : Accounts model (max capacity 1) 0 start := ScorerPool.accounts_empty model capacity
  have h : Accounts model (max capacity 1) (start.discardedAll steps) l := by
    have h := hstart.serveAll steps
    rwa [Nat.zero_add] at h
  refine ⟨h.size, h.created, l.created_serve, fun v => ⟨?_, fun index => ?_⟩⟩
  · have hscore := l.pool.score_eq v
    rwa [h.model] at hscore
  · rw [scoreHeld, Option.map_map]
    split
    · rw [List.getElem?_eq_getElem ‹_›, Option.map_some, ← h.model]
      exact congrArg some (Scorer.score_eq _ _ v)
    · rw [List.getElem?_eq_none (Nat.not_lt.mp ‹_›), Option.map_none]

end Lending

end TrafficWatch
