import Mathlib.Data.List.Forall2
import Mathlib.Data.List.Induction
import TrafficWatch.Proofs.Baseline.Buffer

/-!
# Baseline — Stays

What becomes of the samples that arrive at a buffer.  Times need not be in order, so a prune may take
samples from the middle, while a push takes the oldest one only.  Hence what has left is no beginning
of what has arrived, and each sample gets a line of its own: its `Stay` tells in which step it left.

In a step, some of the samples that are there leave, each for a reason, and one may arrive (`Turn`).
Since the sizes balance (`HasRoom.balance`), as many leave as the step answers (`Turn.countP_left`).
For a run, `Accounts` says that its stays tell the truth: about what the buffer holds at every moment,
about what each step answers, and about why a sample had to leave.  Every run has such stays
(`exists_accounts`).
-/

namespace TrafficWatch

/-! ### Steps -/

/-- What can be asked of a buffer. -/
inductive BufferStep where
  | push (x : Sample)
  | prune (cutoff : Instant)

/-- The samples that arrive with a step. -/
def BufferStep.arrivals : BufferStep → List Sample
  | push x => [x]
  | prune _ => []

namespace BaselineBuffer

/-- A buffer after a step. -/
def serve (b : BaselineBuffer) : BufferStep → BaselineBuffer
  | .push x => (b.push x).2
  | .prune cutoff => (b.prune cutoff).2

/-- A buffer after steps. -/
def serveAll (b : BaselineBuffer) (steps : List BufferStep) : BaselineBuffer :=
  steps.foldl serve b

/-- How many samples are shed in a step, as it answers. -/
def shed (b : BaselineBuffer) : BufferStep → Nat
  | .push x => if (b.push x).1 then 1 else 0
  | .prune _ => 0

/-- How many samples are pruned in a step, as it answers. -/
def pruned (b : BaselineBuffer) : BufferStep → Nat
  | .push _ => 0
  | .prune cutoff => (b.prune cutoff).1

/-- What is counted in all steps together. -/
def total (count : BaselineBuffer → BufferStep → Nat) (b : BaselineBuffer) :
    List BufferStep → Nat
  | [] => 0
  | step :: rest => count b step + (b.serve step).total count rest

/-! ### Sizes -/

/-- There is room for one sample at least, and no more are there than there is room for. -/
structure HasRoom (room : Nat) (b : BaselineBuffer) : Prop where
  capacity : b.capacity = room
  pos : 0 < room
  size : b.size ≤ room

variable {room : Nat} {b : BaselineBuffer}

theorem hasRoom_empty (capacity : Nat) : HasRoom (max capacity 1) (empty capacity) :=
  ⟨rfl, Nat.lt_of_lt_of_le Nat.one_pos (Nat.le_max_right _ _), Nat.zero_le _⟩

theorem HasRoom.serve (h : HasRoom room b) (step : BufferStep) : HasRoom room (b.serve step) := by
  obtain ⟨rfl, hpos, hsize⟩ := h
  cases step with
  | push x => exact ⟨rfl, hpos, size_push_le hsize hpos x⟩
  | prune cutoff => exact ⟨rfl, hpos, Nat.le_trans (b.size_prune_le cutoff) hsize⟩

theorem HasRoom.serveAll (h : HasRoom room b) (steps : List BufferStep) :
    HasRoom room (b.serveAll steps) := by
  induction steps generalizing b with
  | nil => exact h
  | cons step rest ih => exact ih (h.serve step)

/-- A full buffer holds as many samples as there is room for. -/
theorem HasRoom.le_size (h : HasRoom room b) (hfull : b.isFull = true) : room ≤ b.size :=
  h.capacity ▸ of_decide_eq_true hfull

theorem serve_push (b : BaselineBuffer) (x : Sample) :
    (b.serve (.push x)).samples = (if b.isFull then b.samples.drop 1 else b.samples) ++ [x] := rfl

/-- What was there and what arrives with a step stays, or is shed, or is pruned. -/
theorem HasRoom.balance (h : HasRoom room b) (step : BufferStep) :
    b.size + step.arrivals.length = (b.serve step).size + b.shed step + b.pruned step := by
  cases step with
  | push x =>
      have hsize : (b.serve (.push x)).size = (if b.isFull then b.size - 1 else b.size) + 1 := by
        rw [BaselineBuffer.size, serve_push, List.length_append, apply_ite List.length,
          List.length_drop]
        rfl
      have hshed : b.shed (.push x) = if b.isFull then 1 else 0 := rfl
      have hpruned : b.pruned (.push x) = 0 := rfl
      have harrivals : (BufferStep.push x).arrivals.length = 1 := rfl
      have hpos := h.pos
      rw [hsize, hshed, hpruned, harrivals]
      split
      · have := h.le_size ‹_›
        omega
      · rfl
  | prune cutoff =>
      have hpruned : b.pruned (.prune cutoff) = b.size - (b.serve (.prune cutoff)).size := rfl
      have hshed : b.shed (.prune cutoff) = 0 := rfl
      have harrivals : (BufferStep.prune cutoff).arrivals.length = 0 := rfl
      have hle : (b.serve (.prune cutoff)).size ≤ b.size := b.size_prune_le cutoff
      omega

theorem HasRoom.balanceAll (h : HasRoom room b) (steps : List BufferStep) :
    b.size + (steps.flatMap BufferStep.arrivals).length =
      (b.serveAll steps).size + b.total shed steps + b.total pruned steps := by
  induction steps generalizing b with
  | nil => rfl
  | cons step rest ih =>
      have hstep := h.balance step
      have hrest := ih (h.serve step)
      rw [List.flatMap_cons, List.length_append, total, total]
      change _ = ((b.serve step).serveAll rest).size + _ + _
      omega

end BaselineBuffer

/-! ### Stays -/

/-- A sample that has arrived at a buffer. -/
structure Stay where
  sample : Sample
  /-- The number of the step in which the sample left, if it has left. -/
  left : Option Nat

namespace Stay

/-- The sample arrives. -/
def arrive (x : Sample) : Stay :=
  ⟨x, none⟩

/-- The sample leaves in the step of a number. -/
def leave (n : Nat) (stay : Stay) : Stay :=
  { stay with left := some n }

/-- Whether the sample has not left before the step of a number. -/
def isThere (n : Nat) (stay : Stay) : Bool :=
  stay.left.all fun m => decide (n ≤ m)

/-- The samples that have not left before the step of a number. -/
def present (n : Nat) (stays : List Stay) : List Sample :=
  (stays.filter (isThere n)).map sample

/-- The samples that have not left. -/
def remaining (stays : List Stay) : List Sample :=
  (stays.filter fun stay => stay.left = none).map sample

variable {n m : Nat} {stay next : Stay} {stays nexts : List Stay}

theorem map_sample_arrive (xs : List Sample) : (xs.map arrive).map sample = xs := by
  rw [List.map_map]
  exact List.map_id xs

/-- Who has just arrived has not left. -/
theorem left_of_mem_arrive {xs : List Sample} (h : stay ∈ xs.map arrive) : stay.left = none := by
  obtain ⟨x, -, rfl⟩ := List.mem_map.mp h
  rfl

theorem remaining_append_arrive (stays : List Stay) (xs : List Sample) :
    remaining (stays ++ xs.map arrive) = remaining stays ++ xs := by
  have hnew : (xs.map arrive).filter (fun stay => stay.left = none) = xs.map arrive :=
    List.filter_eq_self.mpr fun stay hstay => decide_eq_true (left_of_mem_arrive hstay)
  rw [remaining, List.filter_append, List.map_append, hnew, map_sample_arrive, remaining]

theorem length_remaining (stays : List Stay) :
    (remaining stays).length = stays.countP fun stay => stay.left = none := by
  rw [remaining, List.length_map, List.countP_eq_length_filter]

/-- When all have left before that have left, those who remain are present. -/
theorem present_eq (h : ∀ stay ∈ stays, ∀ m, stay.left = some m → m < n) :
    present n stays = remaining stays := by
  refine congrArg _ (List.filter_congr fun stay hstay => ?_)
  cases hleft : stay.left with
  | none => simp [isThere, hleft]
  | some m => simp [isThere, hleft, h stay hstay m hleft]

/-- If one sample only left in the step of a number, whoever left in it is this one. -/
theorem eq_of_left {gone later : List Stay} {i : Nat} (hgone : ∀ s ∈ gone, s.left ≠ some n)
    (hlater : ∀ s ∈ later, s.left ≠ some n)
    (hnext : (gone ++ stay :: later)[i]? = some next) (hleft : next.left = some n) :
    i = gone.length ∧ next = stay := by
  rcases Nat.lt_or_ge i gone.length with hi | hi
  · rw [List.getElem?_append_left hi] at hnext
    exact absurd hleft (hgone next (List.mem_of_getElem? hnext))
  · rw [List.getElem?_append_right hi] at hnext
    cases hplace : i - gone.length with
    | zero =>
        rw [hplace] at hnext
        exact ⟨by omega, (Option.some.inj hnext).symm⟩
    | succ k =>
        rw [hplace] at hnext
        exact absurd hleft (hlater next (List.mem_of_getElem? hnext))

/-- What may become of a stay in the step of a number. -/
inductive Continues (n : Nat) (stay : Stay) : Stay → Prop where
  | same : Continues n stay stay
  | leaves (hthere : stay.left = none) : Continues n stay (stay.leave n)

namespace Continues

theorem sample (h : Continues n stay next) : next.sample = stay.sample := by
  cases h <;> rfl

/-- Whether a sample was there does not depend on what happens later. -/
theorem isThere (h : Continues n stay next) (hm : m ≤ n) : next.isThere m = stay.isThere m := by
  cases h with
  | same => rfl
  | leaves hthere => simp [Stay.isThere, leave, hthere, hm]

theorem left_eq (h : Continues n stay next) (hm : m ≠ n) :
    next.left = some m ↔ stay.left = some m := by
  cases h with
  | same => exact Iff.rfl
  | leaves hthere => simp [leave, hthere, Ne.symm hm]

theorem refl (n : Nat) (stays : List Stay) : List.Forall₂ (Continues n) stays stays :=
  List.forall₂_same.mpr fun _ _ => .same

theorem map_sample (h : List.Forall₂ (Continues n) stays nexts) :
    nexts.map Stay.sample = stays.map Stay.sample := by
  induction h with
  | nil => rfl
  | cons hstay _ ih => rw [List.map_cons, List.map_cons, hstay.sample, ih]

theorem present_eq (h : List.Forall₂ (Continues n) stays nexts) (hm : m ≤ n) :
    present m nexts = present m stays := by
  induction h with
  | nil => rfl
  | cons hstay _ ih =>
      unfold present at ih ⊢
      rw [List.filter_cons, List.filter_cons, hstay.isThere hm]
      split
      · rw [List.map_cons, List.map_cons, hstay.sample, ih]
      · exact ih

/-- How many left in another step stays the same. -/
theorem countP_of_ne (h : List.Forall₂ (Continues n) stays nexts) (hm : m ≠ n) :
    nexts.countP (fun stay => stay.left = some m) =
      stays.countP fun stay => stay.left = some m := by
  induction h with
  | nil => rfl
  | cons hstay _ ih => simp only [List.countP_cons, ih, hstay.left_eq hm]

/-- Those who leave in a step are missing afterwards. -/
theorem length_remaining (h : List.Forall₂ (Continues n) stays nexts)
    (hnew : ∀ stay ∈ stays, stay.left ≠ some n) :
    (remaining stays).length =
      (remaining nexts).length + nexts.countP fun stay => stay.left = some n := by
  rw [Stay.length_remaining, Stay.length_remaining]
  induction h with
  | nil => rfl
  | cons hstay _ ih =>
      obtain ⟨hfirst, hrest⟩ := List.forall_mem_cons.mp hnew
      have ih := ih hrest
      cases hstay with
      | same => simp [List.countP_cons, hfirst, ih, Nat.add_right_comm]
      | leaves hthere => simp [hthere, leave, ih, Nat.add_assoc]

theorem exists_of_getElem? (h : List.Forall₂ (Continues n) stays nexts) {i : Nat}
    (hnext : nexts[i]? = some next) : ∃ stay, stays[i]? = some stay ∧ Continues n stay next := by
  induction h generalizing i with
  | nil => cases hnext
  | cons hstay _ ih =>
      cases i with
      | zero => exact ⟨_, rfl, Option.some.inj hnext ▸ hstay⟩
      | succ i => exact ih hnext

end Continues

/-- What a prune in the step of a number makes of the stay. -/
def prune (n : Nat) (cutoff : Instant) (stay : Stay) : Stay :=
  if stay.left = none ∧ stay.sample.time < cutoff then stay.leave n else stay

theorem continues_prune (n : Nat) (cutoff : Instant) (stay : Stay) :
    Continues n stay (stay.prune n cutoff) := by
  unfold prune
  split
  · rename_i hgoes
    exact .leaves hgoes.1
  · exact .same

/-- A prune leaves the samples that were there and are not before the cutoff. -/
theorem remaining_prune (n : Nat) (cutoff : Instant) (stays : List Stay) :
    remaining (stays.map (prune n cutoff)) =
      (remaining stays).filter fun x => decide (cutoff ≤ x.time) := by
  unfold remaining
  induction stays with
  | nil => rfl
  | cons stay rest ih =>
      by_cases hthere : stay.left = none
      · by_cases hold : stay.sample.time < cutoff
        · simp [prune, leave, hthere, hold, ih]
        · simp [prune, hthere, hold, Int.not_lt.mp hold, ih]
      · simp [prune, hthere, ih]

end Stay

/-! ### One step -/

namespace BaselineBuffer

/-- Why the sample of a number may leave in a step before which so many have arrived.  A push sheds it
if there is no room, and then so many samples have come after it as there is room for, the pushed one
included; a prune takes it if it is too old. -/
def Releases (room : Nat) (b : BaselineBuffer) (arrived number : Nat) (x : Sample) :
    BufferStep → Prop
  | .push y => (b.push y).1 = true ∧ number + room ≤ arrived
  | .prune cutoff => x.time < cutoff

/-- The stays before the step of a number tell what the buffer holds. -/
structure Agrees (n : Nat) (stays : List Stay) (b : BaselineBuffer) : Prop where
  samples : b.samples = Stay.remaining stays
  earlier : ∀ stay ∈ stays, ∀ m, stay.left = some m → m < n

/-- **What a step does**, which has the given number: some samples that are there leave, each for a
reason, and the buffer holds the others and what arrives. -/
structure Turn (room : Nat) (b : BaselineBuffer) (n : Nat) (step : BufferStep)
    (stays nexts : List Stay) : Prop where
  continues : List.Forall₂ (Stay.Continues n) stays nexts
  samples : (b.serve step).samples = Stay.remaining nexts ++ step.arrivals
  reasons : ∀ i next, nexts[i]? = some next → next.left = some n →
    Releases room b stays.length i next.sample step

variable {room n : Nat} {b : BaselineBuffer} {step : BufferStep} {stays nexts : List Stay}

theorem Agrees.size_eq (h : Agrees n stays b) :
    b.size = stays.countP fun stay => stay.left = none := by
  rw [size, h.samples, Stay.length_remaining]

/-- Nobody has left yet in a step that is still to come. -/
theorem Agrees.left_ne (h : Agrees n stays b) : ∀ stay ∈ stays, stay.left ≠ some n :=
  fun stay hstay hleft => Nat.lt_irrefl n (h.earlier stay hstay n hleft)

/-- A push into a full buffer: the oldest sample that is there leaves. -/
theorem Agrees.exists_push_full (h : Agrees n stays b) (hroom : HasRoom room b)
    (hfull : b.isFull = true) (x : Sample) : ∃ nexts, Turn room b n (.push x) stays nexts := by
  have hsize : room ≤ stays.countP fun stay => stay.left = none :=
    h.size_eq ▸ hroom.le_size hfull
  have hthere : stays.filter (fun stay => stay.left = none) ≠ [] := by
    rw [← List.length_pos_iff, ← List.countP_eq_length_filter]
    exact Nat.lt_of_lt_of_le hroom.pos hsize
  obtain ⟨oldest, rest, hfilter⟩ := List.exists_cons_of_ne_nil hthere
  have hsamples : b.samples = oldest.sample :: rest.map Stay.sample := by
    rw [h.samples, Stay.remaining, hfilter, List.map_cons]
  obtain ⟨gone, later, rfl, hgone, holdest, hrest⟩ := List.filter_eq_cons_iff.mp hfilter
  refine ⟨gone ++ oldest.leave n :: later, ?_, ?_, fun i next hnext hleft => ?_⟩
  · exact List.rel_append (Stay.Continues.refl n gone)
      (.cons (.leaves (of_decide_eq_true holdest)) (Stay.Continues.refl n later))
  · have hleave : (gone ++ oldest.leave n :: later).filter (fun stay => stay.left = none) = rest := by
      rw [List.filter_append, List.filter_eq_nil_iff.mpr hgone, List.nil_append,
        List.filter_cons_of_neg (by simp [Stay.leave]), hrest]
    rw [serve_push, if_pos hfull, hsamples, Stay.remaining, hleave]
    rfl
  · obtain ⟨hfirst, hlast⟩ := List.forall_mem_append.mp h.left_ne
    obtain ⟨rfl, -⟩ := Stay.eq_of_left hfirst (List.forall_mem_cons.mp hlast).2 hnext hleft
    -- all that are there have come with the oldest one or after it
    have hcount : (gone ++ oldest :: later).countP (fun stay => stay.left = none) ≤
        (oldest :: later).length := by
      rw [List.countP_append, List.countP_eq_zero.mpr hgone, Nat.zero_add]
      exact List.countP_le_length
    refine ⟨hfull, ?_⟩
    rw [List.length_append]
    exact Nat.add_le_add_left (Nat.le_trans hsize hcount) _

theorem Agrees.exists_push (h : Agrees n stays b) (hroom : HasRoom room b) (x : Sample) :
    ∃ nexts, Turn room b n (.push x) stays nexts := by
  by_cases hfull : b.isFull = true
  · exact h.exists_push_full hroom hfull x
  · refine ⟨stays, Stay.Continues.refl n stays, ?_, fun i stay hstay hleft => ?_⟩
    · rw [serve_push, if_neg hfull, h.samples]
      rfl
    · exact absurd hleft (h.left_ne stay (List.mem_of_getElem? hstay))

/-- A prune: of the samples that are there, those before the cutoff leave. -/
theorem Agrees.exists_prune (h : Agrees n stays b) (cutoff : Instant) :
    ∃ nexts, Turn room b n (.prune cutoff) stays nexts := by
  refine ⟨stays.map (Stay.prune n cutoff), ?_, ?_, fun i next hnext hleft => ?_⟩
  · exact List.forall₂_map_right_iff.mpr
      (List.forall₂_same.mpr fun stay _ => stay.continues_prune n cutoff)
  · rw [Stay.remaining_prune, ← h.samples]
    exact (List.append_nil _).symm
  · rw [List.getElem?_map] at hnext
    obtain ⟨stay, hstay, rfl⟩ := Option.map_eq_some_iff.mp hnext
    unfold Stay.prune at hleft ⊢
    split at hleft
    · rename_i hgoes
      rw [if_pos hgoes]
      exact hgoes.2
    · exact absurd hleft (h.left_ne stay (List.mem_of_getElem? hstay))

theorem Agrees.exists_turn (h : Agrees n stays b) (hroom : HasRoom room b) (step : BufferStep) :
    ∃ nexts, Turn room b n step stays nexts := by
  cases step with
  | push x => exact h.exists_push hroom x
  | prune cutoff => exact h.exists_prune cutoff

/-- As many samples leave in a step as it answers, because the sizes balance. -/
theorem Turn.countP_left (t : Turn room b n step stays nexts) (h : Agrees n stays b)
    (hroom : HasRoom room b) :
    nexts.countP (fun stay => stay.left = some n) = b.shed step + b.pruned step := by
  have hbalance := hroom.balance step
  have hremaining := Stay.Continues.length_remaining t.continues h.left_ne
  rw [size, size, t.samples, h.samples, List.length_append] at hbalance
  omega

/-- **One step more**: the stays still tell what the buffer holds. -/
theorem Turn.agrees (t : Turn room b n step stays nexts) (h : Agrees n stays b) :
    Agrees (n + 1) (nexts ++ step.arrivals.map Stay.arrive) (b.serve step) where
  samples := by rw [t.samples, Stay.remaining_append_arrive]
  earlier next hnext m hleft := by
    rcases List.mem_append.mp hnext with hnext | hnew
    · obtain ⟨i, hi⟩ := List.getElem?_of_mem hnext
      obtain ⟨stay, hstay, hcontinues⟩ := Stay.Continues.exists_of_getElem? t.continues hi
      by_cases hnow : m = n
      · exact Nat.lt_succ_of_le (Nat.le_of_eq hnow)
      · exact Nat.lt_succ_of_lt
          (h.earlier stay (List.mem_of_getElem? hstay) m ((hcontinues.left_eq hnow).mp hleft))
    · rw [Stay.left_of_mem_arrive hnew] at hleft
      cases hleft

/-! ### Runs -/

/-- A buffer that was empty at first, before the step of a number. -/
def before (capacity : Nat) (steps : List BufferStep) (n : Nat) : BaselineBuffer :=
  (empty capacity).serveAll (steps.take n)

/-- How many samples have arrived before the step of a number. -/
def arrived (steps : List BufferStep) (n : Nat) : Nat :=
  ((steps.take n).flatMap BufferStep.arrivals).length

/-- **The stays tell what has become of all samples** that have arrived with steps at a buffer, which
was empty at first. -/
structure Accounts (capacity : Nat) (steps : List BufferStep) (stays : List Stay) : Prop where
  /-- Every sample that has arrived has one stay, and they are in the order of arrival. -/
  samples : stays.map Stay.sample = steps.flatMap BufferStep.arrivals
  /-- Before each step and after the last one, the buffer holds the samples that have arrived and
  have not left. -/
  moments : ∀ n ≤ steps.length,
    (before capacity steps n).samples = Stay.present n (stays.take (arrived steps n))
  /-- As many samples leave in a step as it answers. -/
  answers : ∀ n step, steps[n]? = some step →
    stays.countP (fun stay => stay.left = some n) =
      (before capacity steps n).shed step + (before capacity steps n).pruned step
  /-- Who leaves, leaves in one of the steps and for a reason. -/
  reasons : ∀ i n stay, stays[i]? = some stay → stay.left = some n →
    ∃ step, steps[n]? = some step ∧
      Releases (max capacity 1) (before capacity steps n) (arrived steps n) i stay.sample step

variable {capacity : Nat} {steps : List BufferStep}

/-- What comes after a step does not matter before it. -/
theorem before_snoc (hn : n ≤ steps.length) :
    before capacity (steps ++ [step]) n = before capacity steps n := by
  rw [before, before, List.take_append_of_le_length hn]

theorem arrived_snoc (hn : n ≤ steps.length) :
    arrived (steps ++ [step]) n = arrived steps n := by
  rw [arrived, arrived, List.take_append_of_le_length hn]

theorem arrived_length (steps : List BufferStep) :
    arrived steps steps.length = (steps.flatMap BufferStep.arrivals).length := by
  rw [arrived, List.take_length]

theorem before_length (capacity : Nat) (steps : List BufferStep) :
    before capacity steps steps.length = (empty capacity).serveAll steps := by
  rw [before, List.take_length]

theorem hasRoom_before (capacity : Nat) (steps : List BufferStep) (n : Nat) :
    HasRoom (max capacity 1) (before capacity steps n) :=
  (hasRoom_empty capacity).serveAll _

theorem before_snoc_length (capacity : Nat) (steps : List BufferStep) (step : BufferStep) :
    before capacity (steps ++ [step]) (steps ++ [step]).length =
      (before capacity steps steps.length).serve step := by
  rw [before_length, before_length, serveAll, List.foldl_append]
  rfl

theorem arrived_le (steps : List BufferStep) (n : Nat) :
    arrived steps n ≤ (steps.flatMap BufferStep.arrivals).length := by
  have hsplit : (steps.flatMap BufferStep.arrivals).length =
      arrived steps n + ((steps.drop n).flatMap BufferStep.arrivals).length := by
    rw [arrived, ← List.length_append, ← List.flatMap_append, List.take_append_drop]
  rw [hsplit]
  exact Nat.le_add_right _ _

namespace Accounts

theorem length_eq (h : Accounts capacity steps stays) :
    stays.length = (steps.flatMap BufferStep.arrivals).length := by
  rw [← h.samples, List.length_map]

/-- After all steps, the stays tell what the buffer holds. -/
theorem agrees (h : Accounts capacity steps stays) :
    Agrees steps.length stays (before capacity steps steps.length) := by
  have hearlier : ∀ stay ∈ stays, ∀ m, stay.left = some m → m < steps.length := by
    intro stay hstay m hleft
    obtain ⟨i, hi⟩ := List.getElem?_of_mem hstay
    obtain ⟨step, hstep, -⟩ := h.reasons i m stay hi hleft
    exact (List.getElem?_eq_some_iff.mp hstep).1
  refine ⟨?_, hearlier⟩
  rw [h.moments steps.length (Nat.le_refl _), arrived_length, ← h.length_eq, List.take_length,
    Stay.present_eq hearlier]

/-- The buffer holds samples that have arrived, in their order. -/
theorem sublist (h : Accounts capacity steps stays) :
    (before capacity steps steps.length).samples.Sublist (steps.flatMap BufferStep.arrivals) := by
  rw [h.agrees.samples, ← h.samples]
  exact List.filter_sublist.map _

section Snoc

variable (h : Accounts capacity steps stays)
  (t : Turn (max capacity 1) (before capacity steps steps.length) steps.length step stays nexts)

include h t

theorem samples_snoc : (nexts ++ step.arrivals.map Stay.arrive).map Stay.sample =
    (steps ++ [step]).flatMap BufferStep.arrivals := by
  rw [List.map_append, Stay.Continues.map_sample t.continues, h.samples, Stay.map_sample_arrive,
    List.flatMap_append, List.flatMap_singleton]

theorem moments_snoc (hn : n ≤ (steps ++ [step]).length) :
    (before capacity (steps ++ [step]) n).samples = Stay.present n
      ((nexts ++ step.arrivals.map Stay.arrive).take (arrived (steps ++ [step]) n)) := by
  rcases Nat.lt_or_eq_of_le hn with hearlier | rfl
  · have hle : n ≤ steps.length := by
      rw [List.length_append, List.length_singleton] at hearlier
      exact Nat.le_of_lt_succ hearlier
    have hlength : arrived steps n ≤ nexts.length := by
      rw [← t.continues.length_eq, h.length_eq]
      exact arrived_le steps n
    rw [before_snoc hle, arrived_snoc hle, h.moments n hle, List.take_append_of_le_length hlength]
    exact (Stay.Continues.present_eq (List.forall₂_take _ t.continues) hle).symm
  · have hagrees := t.agrees h.agrees
    rw [before_snoc_length, hagrees.samples, arrived_length, ← h.samples_snoc t, List.length_map,
      List.take_length, List.length_append]
    exact (Stay.present_eq hagrees.earlier).symm

theorem answers_snoc {next : BufferStep} (hnext : (steps ++ [step])[n]? = some next) :
    (nexts ++ step.arrivals.map Stay.arrive).countP (fun stay => stay.left = some n) =
      (before capacity (steps ++ [step]) n).shed next +
        (before capacity (steps ++ [step]) n).pruned next := by
  have hnew : (step.arrivals.map Stay.arrive).countP (fun stay => stay.left = some n) = 0 :=
    List.countP_eq_zero.mpr fun stay hstay => by simp [Stay.left_of_mem_arrive hstay]
  rw [List.countP_append, hnew, Nat.add_zero]
  rcases Nat.lt_or_ge n steps.length with hn | hn
  · rw [List.getElem?_append_left hn] at hnext
    rw [Stay.Continues.countP_of_ne t.continues (Nat.ne_of_lt hn), before_snoc (Nat.le_of_lt hn)]
    exact h.answers n next hnext
  · obtain ⟨rfl, rfl⟩ : n = steps.length ∧ next = step := by
      rw [List.getElem?_append_right hn, List.getElem?_singleton] at hnext
      split at hnext
      · exact ⟨by omega, (Option.some.inj hnext).symm⟩
      · cases hnext
    rw [before_snoc hn]
    exact t.countP_left h.agrees (hasRoom_before capacity steps _)

theorem reasons_snoc {i : Nat} {next : Stay}
    (hnext : (nexts ++ step.arrivals.map Stay.arrive)[i]? = some next)
    (hleft : next.left = some n) :
    ∃ st, (steps ++ [step])[n]? = some st ∧
      Releases (max capacity 1) (before capacity (steps ++ [step]) n) (arrived (steps ++ [step]) n)
        i next.sample st := by
  rcases Nat.lt_or_ge i nexts.length with hi | hi
  · rw [List.getElem?_append_left hi] at hnext
    obtain ⟨stay, hstay, hcontinues⟩ := Stay.Continues.exists_of_getElem? t.continues hnext
    by_cases hn : n = steps.length
    · subst hn
      have hnow := Nat.le_refl steps.length
      refine ⟨step, List.getElem?_concat_length, ?_⟩
      rw [before_snoc hnow, arrived_snoc hnow, arrived_length, ← h.length_eq]
      exact t.reasons i next hnext hleft
    · obtain ⟨st, hst, hreason⟩ := h.reasons i n stay hstay ((hcontinues.left_eq hn).mp hleft)
      have hlt : n < steps.length := (List.getElem?_eq_some_iff.mp hst).1
      refine ⟨st, (List.getElem?_append_left hlt).trans hst, ?_⟩
      rw [before_snoc (Nat.le_of_lt hlt), arrived_snoc (Nat.le_of_lt hlt), hcontinues.sample]
      exact hreason
  · rw [List.getElem?_append_right hi] at hnext
    rw [Stay.left_of_mem_arrive (List.mem_of_getElem? hnext)] at hleft
    cases hleft

/-- **The stays go on** with each step. -/
theorem snoc : Accounts capacity (steps ++ [step]) (nexts ++ step.arrivals.map Stay.arrive) where
  samples := h.samples_snoc t
  moments _ hn := h.moments_snoc t hn
  answers _ _ hnext := h.answers_snoc t hnext
  reasons _ _ _ hnext hleft := h.reasons_snoc t hnext hleft

end Snoc

end Accounts

/-- **Every run has stays** that tell what has become of its samples. -/
theorem exists_accounts (capacity : Nat) (steps : List BufferStep) :
    ∃ stays, Accounts capacity steps stays := by
  induction steps using List.reverseRecOn with
  | nil =>
      refine ⟨[], rfl, fun n hn => ?_, nofun, nofun⟩
      rw [Nat.le_zero.mp hn]
      rfl
  | append_singleton steps step ih =>
      obtain ⟨stays, h⟩ := ih
      obtain ⟨nexts, t⟩ := h.agrees.exists_turn (hasRoom_before capacity steps _) step
      exact ⟨_, h.snoc t⟩

/-- **Every sample is accounted for.** Let samples be pushed into a buffer of any capacity, and let it
be pruned, in any order and whatever the times are.  Then the buffer holds some of the samples that
have arrived, in their order, and no more than it may.  Every sample that has arrived is there, or was
shed by one push that says so, or was pruned in one step that counts it, and the sums agree.  A push
sheds a sample only after so many others have come as there is room for.  What is pushed next is in
the buffer, at its end, and the next prune leaves what is not before the cutoff. -/
theorem samples_accounted (capacity : Nat) (steps : List BufferStep) :
    let start := empty capacity
    let b := start.serveAll steps
    let arrived := steps.flatMap BufferStep.arrivals
    b.samples.Sublist arrived ∧ b.size ≤ max capacity 1 ∧
    (∃ stays, Accounts capacity steps stays) ∧
    arrived.length = b.size + start.total shed steps + start.total pruned steps ∧
    (∀ x, (b.push x).2.samples.getLast? = some x) ∧
    ∀ cutoff, (b.prune cutoff).2.samples = b.samples.filter fun x => cutoff ≤ x.time := by
  intro start b arrived
  obtain ⟨stays, h⟩ := exists_accounts capacity steps
  have hroom : HasRoom (max capacity 1) start := hasRoom_empty capacity
  have hsublist := h.sublist
  rw [before_length] at hsublist
  have hbalance := hroom.balanceAll steps
  rw [show start.size = 0 from rfl, Nat.zero_add] at hbalance
  exact ⟨hsublist, (hroom.serveAll steps).size, ⟨stays, h⟩, hbalance,
    fun x => List.getLast?_concat, fun cutoff => rfl⟩

example :
    let pushAt time := BufferStep.push ⟨time, .replicate 6 0.0⟩
    let steps := [pushAt 5, pushAt 1, pushAt 7, .prune 3, pushAt 2, pushAt 8]
    ((empty 3).serveAll steps).samples.map Sample.time = [7, 2, 8] ∧
      (empty 3).total shed steps = 1 ∧ (empty 3).total pruned steps = 1 := by decide

end BaselineBuffer

end TrafficWatch
