import TrafficWatch.Proofs.Pca.Plane

/-!
# Pca — Jacobi

Diagonalization in exact arithmetic.  The invariant of `Diagonalization.Turns` says that the matrix is
the first one seen in the basis gathered so far, which is orthonormal; one rotation keeps it
(`Diagonalization.Turns.rotate`), so it holds at every moment of every sequence of rotations.  The sum
of all squares depends on the first matrix only, and a rotation moves the square of the entry that it
takes to zero onto the diagonal, twice (`Diagonalization.offDiagonal_rotate`).
-/

namespace TrafficWatch

open Matrix

variable {n : Nat}

namespace Square

/-! ### Sums of entries -/

/-- The sum of the squares of all entries. -/
def squares (m : Square ℝ n) : ℝ :=
  ∑ i, ∑ j, m.entry i j * m.entry i j

theorem squares_eq_trace (m : Square ℝ n) : m.squares = (m.toMatrix * m.toMatrixᵀ).trace := by
  simp only [squares, Matrix.trace, Matrix.diag_apply, Matrix.mul_apply, Matrix.transpose_apply,
    toMatrix_apply]

theorem sum_diagonal (m : Square ℝ n) : Scalar.sum m.diagonal = m.toMatrix.trace :=
  Scalar.sum_map_finRange _

theorem lt_of_mem_pairs {a : Fin n × Fin n} (h : a ∈ pairs n) : a.1 < a.2 := by
  obtain ⟨p, -, h⟩ := List.mem_flatMap.mp h
  obtain ⟨q, hq, rfl⟩ := List.mem_map.mp h
  exact of_decide_eq_true (List.mem_filter.mp hq).2

theorem offDiagonal_eq (m : Square ℝ n) :
    m.offDiagonal = ∑ p, ∑ q, if p < q then m.entry p q * m.entry p q else 0 := by
  have hrow (p : Fin n) : (((List.finRange n).filter fun q => p < q).map fun q =>
      m.entry p q * m.entry p q).sum = ∑ q, if p < q then m.entry p q * m.entry p q else 0 := by
    rw [Fin.sum_univ_def, List.sum_map_ite, List.sum_map_zero, add_zero]
  rw [offDiagonal, Scalar.real_sum, pairs, List.map_flatMap, List.flatMap_def, List.sum_flatten,
    List.map_map, Fin.sum_univ_def]
  refine congrArg List.sum (List.map_congr_left fun p _ => ?_)
  rw [← hrow, Function.comp_apply, List.map_map]
  rfl

theorem entry_comm {m : Square ℝ n} (h : m.toMatrix.IsSymm) (i j : Fin n) :
    m.entry i j = m.entry j i :=
  (h.apply i j).symm

/-- In a symmetric matrix what is above the diagonal stands below it as well. -/
theorem squares_eq {m : Square ℝ n} (h : m.toMatrix.IsSymm) :
    m.squares = ∑ i, m.entry i i * m.entry i i + 2 * m.offDiagonal := by
  have hentry (i j : Fin n) : m.entry i j * m.entry i j =
      (if i = j then m.entry i i * m.entry i i else 0) +
        ((if i < j then m.entry i j * m.entry i j else 0) +
          if j < i then m.entry j i * m.entry j i else 0) := by
    rcases lt_trichotomy i j with hij | rfl | hij
    · simp [hij, hij.ne, hij.le]
    · simp
    · simp [hij, hij.ne', hij.le, entry_comm h i j]
  have hbelow : ∑ i, ∑ j, (if j < i then m.entry j i * m.entry j i else 0) = m.offDiagonal := by
    rw [Finset.sum_comm, offDiagonal_eq]
  rw [squares, Finset.sum_congr rfl fun i _ => Finset.sum_congr rfl fun j _ => hentry i j]
  simp only [Finset.sum_add_distrib, Finset.sum_ite_eq, Finset.mem_univ, if_true]
  rw [hbelow, ← offDiagonal_eq, two_mul]

end Square

namespace Diagonalization

open Square

/-! ### The invariant -/

/-- What holds at every moment of a diagonalization: the basis is orthonormal, and the matrix is the
first one as it looks in that basis. -/
structure Turns (a : Square ℝ n) (d : Diagonalization ℝ n) : Prop where
  orthogonal : d.basis.toMatrixᵀ * d.basis.toMatrix = 1
  symmetric : d.matrix.toMatrix.IsSymm
  similar : d.matrix.toMatrix = d.basis.toMatrixᵀ * a.toMatrix * d.basis.toMatrix

variable {a : Square ℝ n} {d : Diagonalization ℝ n} {p q : Fin n}

theorem turns_start (h : a.toMatrix.IsSymm) : (start a).Turns a where
  orthogonal := by rw [start, toMatrix_identity, Matrix.transpose_one, Matrix.one_mul]
  symmetric := h
  similar := by rw [start, toMatrix_identity, Matrix.transpose_one, Matrix.one_mul, Matrix.mul_one]

/-- A basis that is turned goes on with the invariant. -/
theorem Turns.turn (h : d.Turns a) (hpq : p ≠ q) {cos sin : ℝ} (hcos : cos * cos + sin * sin = 1) :
    Turns a ⟨(d.matrix.turnColumns p q cos sin).turnRows p q cos sin,
      d.basis.turnColumns p q cos sin⟩ where
  orthogonal := by
    rw [toMatrix_turnColumns hpq, Matrix.transpose_mul, Matrix.mul_assoc,
      ← Matrix.mul_assoc _ d.basis.toMatrix, h.orthogonal, Matrix.one_mul,
      plane_transpose_mul_self hpq hcos]
  symmetric := by
    rw [toMatrix_turnRows hpq, toMatrix_turnColumns hpq, Matrix.IsSymm, Matrix.transpose_mul,
      Matrix.transpose_mul, Matrix.transpose_transpose, h.symmetric.eq, Matrix.mul_assoc]
  similar := by
    rw [toMatrix_turnRows hpq, toMatrix_turnColumns hpq, toMatrix_turnColumns hpq, h.similar,
      Matrix.transpose_mul]
    simp only [Matrix.mul_assoc]

/-- **One rotation keeps the invariant.** -/
theorem Turns.rotate (h : d.Turns a) (hpq : p ≠ q) : (d.rotate p q).Turns a := by
  rcases eq_or_ne (d.matrix.entry p q) 0 with hzero | hne
  · rw [Diagonalization.rotate, if_pos (Scalar.real_isZero.mpr hzero)]
    exact h
  · obtain ⟨cos, sin, hcos, -, hrotate⟩ := exists_rotate_eq d hne
    rw [hrotate]
    exact h.turn hpq hcos

/-- The basis is orthonormal the other way round as well. -/
theorem Turns.orthogonal' (h : d.Turns a) : d.basis.toMatrix * d.basis.toMatrixᵀ = 1 :=
  mul_eq_one_comm.mp h.orthogonal

theorem Turns.trace (h : d.Turns a) : d.matrix.toMatrix.trace = a.toMatrix.trace := by
  rw [h.similar, Matrix.trace_mul_cycle, h.orthogonal', Matrix.one_mul]

/-- The sum of all squares is that of the first matrix. -/
theorem Turns.squares (h : d.Turns a) : d.matrix.squares = a.squares := by
  have hproduct : d.matrix.toMatrix * d.matrix.toMatrixᵀ =
      d.basis.toMatrixᵀ * (a.toMatrix * a.toMatrixᵀ) * d.basis.toMatrix := by
    rw [h.similar, Matrix.transpose_mul, Matrix.transpose_mul, Matrix.transpose_transpose,
      Matrix.mul_assoc, ← Matrix.mul_assoc d.basis.toMatrix, h.orthogonal', Matrix.one_mul]
    simp only [Matrix.mul_assoc]
  rw [squares_eq_trace, squares_eq_trace, hproduct, Matrix.trace_mul_cycle, h.orthogonal',
    Matrix.one_mul]

/-! ### One rotation -/

section Turned

variable {m : Square ℝ n} {cos sin : ℝ}

theorem entry_turned_first (h : m.toMatrix.IsSymm) (hpq : p ≠ q) :
    ((m.turnColumns p q cos sin).turnRows p q cos sin).entry p p =
      cos * cos * m.entry p p - 2 * cos * sin * m.entry p q + sin * sin * m.entry q q := by
  simp only [entry_turnRows hpq, entry_turnColumns hpq, if_true]
  linear_combination (-(cos * sin)) * entry_comm h q p

theorem entry_turned_second (h : m.toMatrix.IsSymm) (hpq : p ≠ q) :
    ((m.turnColumns p q cos sin).turnRows p q cos sin).entry q q =
      sin * sin * m.entry p p + 2 * cos * sin * m.entry p q + cos * cos * m.entry q q := by
  simp only [entry_turnRows hpq, entry_turnColumns hpq, if_true, if_neg hpq.symm]
  linear_combination cos * sin * entry_comm h q p

theorem entry_turned_between (h : m.toMatrix.IsSymm) (hpq : p ≠ q) :
    ((m.turnColumns p q cos sin).turnRows p q cos sin).entry p q =
      cos * sin * (m.entry p p - m.entry q q) + (cos * cos - sin * sin) * m.entry p q := by
  simp only [entry_turnRows hpq, entry_turnColumns hpq, if_true, if_neg hpq.symm]
  linear_combination (-(sin * sin)) * entry_comm h q p

theorem entry_turned_other (hpq : p ≠ q) {i : Fin n} (hi : i ≠ p ∧ i ≠ q) :
    ((m.turnColumns p q cos sin).turnRows p q cos sin).entry i i = m.entry i i := by
  simp only [entry_turnRows hpq, entry_turnColumns hpq, if_neg hi.1, if_neg hi.2]

/-- Turning columns and rows by an angle that takes an entry to zero moves its square onto the
diagonal, once for each of the two places where it has been. -/
theorem sum_diagonal_turned (h : m.toMatrix.IsSymm) (hpq : p ≠ q)
    (hcos : cos * cos + sin * sin = 1)
    (hangle : cos * sin * (m.entry p p - m.entry q q) +
      (cos * cos - sin * sin) * m.entry p q = 0) :
    let turned := (m.turnColumns p q cos sin).turnRows p q cos sin
    ∑ i, turned.entry i i * turned.entry i i =
      ∑ i, m.entry i i * m.entry i i + 2 * (m.entry p q * m.entry p q) := by
  intro turned
  have hother (i : Fin n) (hi : i ≠ p ∧ i ≠ q) :
      turned.entry i i * turned.entry i i - m.entry i i * m.entry i i = 0 := by
    rw [entry_turned_other hpq hi, sub_self]
  have hdifference : ∑ i, (turned.entry i i * turned.entry i i - m.entry i i * m.entry i i) =
      2 * (m.entry p q * m.entry p q) := by
    rw [Fintype.sum_eq_add p q hpq hother, entry_turned_first h hpq, entry_turned_second h hpq]
    -- the squares of the four entries in the plane add up to what they were
    set x := m.entry p p
    set y := m.entry q q
    set z := m.entry p q
    linear_combination (cos * cos + sin * sin + 1) * (x * x + y * y + 2 * (z * z)) * hcos -
      2 * (cos * sin * (x - y) + (cos * cos - sin * sin) * z) * hangle
  rw [Finset.sum_sub_distrib] at hdifference
  linear_combination hdifference

end Turned

/-- **A rotation takes its entry to zero, and the sum of the squares above the diagonal sinks by the
square that has been there.** -/
theorem rotate_spec (h : d.matrix.toMatrix.IsSymm) (hpq : p ≠ q) (hne : d.matrix.entry p q ≠ 0) :
    (d.rotate p q).matrix.entry p q = 0 ∧
      (d.rotate p q).matrix.offDiagonal =
        d.matrix.offDiagonal - d.matrix.entry p q * d.matrix.entry p q := by
  obtain ⟨cos, sin, hcos, hangle, hrotate⟩ := exists_rotate_eq d hne
  have hturns := (turns_start h).turn hpq hcos
  have hdiagonal := sum_diagonal_turned h hpq hcos hangle
  -- the sum of all squares stays, so what comes to the diagonal is missing beside it, on both sides
  have hsquares := hturns.squares
  rw [squares_eq hturns.symmetric, squares_eq h] at hsquares
  rw [hrotate]
  refine ⟨(entry_turned_between h hpq).trans hangle, ?_⟩
  dsimp only [start] at hsquares ⊢
  linear_combination (1 / 2) * hsquares - (1 / 2) * hdiagonal

/-! ### Many rotations -/

section Moments

variable {α : Type} [Scalar α]

/-- A rotation for each of several planes, one after the other. -/
def rotateAll (d : Diagonalization α n) (planes : List (Fin n × Fin n)) : Diagonalization α n :=
  planes.foldl (fun d b => d.rotate b.1 b.2) d

/-- The planes of a number of sweeps. -/
def planes (n sweeps : Nat) : List (Fin n × Fin n) :=
  (List.replicate sweeps (pairs n)).flatten

theorem ne_of_mem_planes {sweeps : Nat} {b : Fin n × Fin n} (h : b ∈ planes n sweeps) :
    b.1 ≠ b.2 := by
  obtain ⟨row, hrow, hb⟩ := List.mem_flatten.mp h
  rw [List.eq_of_mem_replicate hrow] at hb
  exact (lt_of_mem_pairs hb).ne

/-- The moment after a number of rotations, of those that some number of sweeps does. -/
def moment (m : Square α n) (sweeps count : Nat) : Diagonalization α n :=
  (start m).rotateAll ((planes n sweeps).take count)

/-- The result is what some number of sweeps leaves. -/
theorem exists_run_eq (isDone : Square α n → Bool) (limit : Nat) (d : Diagonalization α n) :
    ∃ sweeps ≤ limit, run isDone limit d = d.rotateAll (planes n sweeps) := by
  induction limit generalizing d with
  | zero => exact ⟨0, le_rfl, rfl⟩
  | succ limit ih =>
      rw [run]
      split_ifs with hdone
      · exact ⟨0, Nat.zero_le _, rfl⟩
      · obtain ⟨sweeps, hle, hrun⟩ := ih d.sweep
        refine ⟨sweeps + 1, Nat.succ_le_succ hle, ?_⟩
        rw [hrun, planes, planes, List.replicate_succ, List.flatten_cons, rotateAll, rotateAll,
          List.foldl_append]
        rfl

end Moments

theorem Turns.rotateAll (h : d.Turns a) {planes : List (Fin n × Fin n)}
    (hplanes : ∀ b ∈ planes, b.1 ≠ b.2) : (d.rotateAll planes).Turns a := by
  induction planes generalizing d with
  | nil => exact h
  | cons b planes ih =>
      obtain ⟨hb, hplanes⟩ := List.forall_mem_cons.mp hplanes
      exact ih (h.rotate hb) hplanes

theorem offDiagonal_rotate_le (h : d.matrix.toMatrix.IsSymm) (hpq : p ≠ q) :
    (d.rotate p q).matrix.offDiagonal ≤ d.matrix.offDiagonal := by
  rcases eq_or_ne (d.matrix.entry p q) 0 with hzero | hne
  · rw [rotate, if_pos (Scalar.real_isZero.mpr hzero)]
  · rw [(rotate_spec h hpq hne).2]
    exact sub_le_self _ (mul_self_nonneg _)

/-- **Rotations never raise what is off the diagonal.** -/
theorem Turns.offDiagonal_rotateAll_le (h : d.Turns a) {planes : List (Fin n × Fin n)}
    (hplanes : ∀ b ∈ planes, b.1 ≠ b.2) :
    (d.rotateAll planes).matrix.offDiagonal ≤ d.matrix.offDiagonal := by
  induction planes generalizing d with
  | nil => exact le_rfl
  | cons b planes ih =>
      obtain ⟨hb, hplanes⟩ := List.forall_mem_cons.mp hplanes
      exact (ih (h.rotate hb) hplanes).trans (offDiagonal_rotate_le h.symmetric hb)

theorem turns_moment (h : a.toMatrix.IsSymm) (sweeps count : Nat) : (moment a sweeps count).Turns a :=
  (turns_start h).rotateAll fun _ hb => ne_of_mem_planes (List.mem_of_mem_take hb)

theorem antitone_offDiagonal_moment (h : a.toMatrix.IsSymm) (sweeps : Nat) :
    Antitone fun count => (moment a sweeps count).matrix.offDiagonal := by
  intro count later hle
  obtain ⟨more, rfl⟩ := Nat.exists_eq_add_of_le hle
  have hsplit : moment a sweeps (count + more) =
      (moment a sweeps count).rotateAll (((planes n sweeps).drop count).take more) := by
    rw [moment, moment, rotateAll, rotateAll, rotateAll, List.take_add, List.foldl_append]
  simp only [hsplit]
  exact (turns_moment h sweeps count).offDiagonal_rotateAll_le fun _ hb =>
    ne_of_mem_planes (List.mem_of_mem_drop (List.mem_of_mem_take hb))

/-- The columns of a basis that is orthonormal. -/
theorem Turns.dot_column (h : d.Turns a) (i j : Fin n) :
    Scalar.dot (d.basis.column i) (d.basis.column j) = if i = j then 1 else 0 := by
  rw [column, column, Scalar.dot_map_finRange, ← Matrix.one_apply, ← h.orthogonal, Matrix.mul_apply]
  rfl

/-- **Diagonalization in exact arithmetic.**  After every number of rotations of a symmetric matrix the
basis is orthogonal and the matrix is the first one as it looks in that basis, so it is symmetric and
has the trace and the sum of squares of the first one.  A rotation in the plane of an entry that is not
zero makes it zero and lowers the sum of the squares above the diagonal by exactly its square, so that
sum never rises.  Whatever test ends the sweeps, and whatever their limit, the columns of the result
are orthonormal and its values add up to the trace. -/
theorem diagonalization_exact (a : Square ℝ n) (ha : a.toMatrix.IsSymm) :
    (∀ sweeps count, let d := moment a sweeps count
      d.basis.toMatrixᵀ * d.basis.toMatrix = 1 ∧
      d.matrix.toMatrix.IsSymm ∧
      d.matrix.toMatrix = d.basis.toMatrixᵀ * a.toMatrix * d.basis.toMatrix ∧
      d.matrix.toMatrix.trace = a.toMatrix.trace ∧
      d.matrix.squares = a.squares ∧
      ∀ p q, p ≠ q → d.matrix.entry p q ≠ 0 →
        (d.rotate p q).matrix.entry p q = 0 ∧
        (d.rotate p q).matrix.offDiagonal =
          d.matrix.offDiagonal - d.matrix.entry p q * d.matrix.entry p q) ∧
    (∀ sweeps, Antitone fun count => (moment a sweeps count).matrix.offDiagonal) ∧
    ∀ isDone limit, let d := run isDone limit (start a)
      (∃ sweeps ≤ limit, d = moment a sweeps (planes n sweeps).length) ∧
      (∀ i j, Scalar.dot (d.basis.column i) (d.basis.column j) = if i = j then 1 else 0) ∧
      Scalar.sum d.matrix.diagonal = a.toMatrix.trace ∧
      d.matrix.offDiagonal ≤ a.offDiagonal := by
  refine ⟨fun sweeps count => ?_, antitone_offDiagonal_moment ha, fun isDone limit => ?_⟩
  · have h := turns_moment ha sweeps count
    exact ⟨h.orthogonal, h.symmetric, h.similar, h.trace, h.squares, fun p q hpq hne =>
      rotate_spec h.symmetric hpq hne⟩
  · obtain ⟨sweeps, hle, hrun⟩ := exists_run_eq isDone limit (start a)
    have hmoment : run isDone limit (start a) = moment a sweeps (planes n sweeps).length := by
      rw [hrun, moment, List.take_length]
    have h := turns_moment ha sweeps (planes n sweeps).length
    rw [hmoment]
    exact ⟨⟨sweeps, hle, rfl⟩, h.dot_column, (sum_diagonal _).trans h.trace,
      antitone_offDiagonal_moment ha sweeps (Nat.zero_le _)⟩

/-- A symmetric matrix that is not diagonal. -/
noncomputable def twoAndOne : Square ℝ 2 :=
  ofFn fun i j => if i = j then 2 else 1

theorem diagonalization_exact_twoAndOne :
    twoAndOne.toMatrix.IsSymm ∧ twoAndOne.entry 0 1 ≠ 0 ∧
      ((start twoAndOne).rotate 0 1).matrix.entry 0 1 = 0 ∧
      ((start twoAndOne).rotate 0 1).matrix.offDiagonal = 0 := by
  have hentry (i j : Fin 2) : twoAndOne.entry i j = if i = j then 2 else 1 := entry_ofFn _ i j
  have hsymm : twoAndOne.toMatrix.IsSymm := by
    ext i j
    simp only [Matrix.transpose_apply, toMatrix_apply, hentry, eq_comm]
  have hone : twoAndOne.entry 0 1 = 1 := hentry 0 1
  have hsum : twoAndOne.offDiagonal = 1 := by
    simp [offDiagonal_eq, Fin.sum_univ_two, hentry]
  have hne : twoAndOne.entry 0 1 ≠ 0 := hone.trans_ne one_ne_zero
  obtain ⟨-, -, -, -, -, hrotate⟩ := (diagonalization_exact twoAndOne hsymm).1 0 0
  obtain ⟨hzero, hsink⟩ := hrotate 0 1 Fin.zero_ne_one hne
  have hsink : ((start twoAndOne).rotate 0 1).matrix.offDiagonal =
      twoAndOne.offDiagonal - twoAndOne.entry 0 1 * twoAndOne.entry 0 1 := hsink
  exact ⟨hsymm, hne, hzero, by rw [hsink, hsum, hone, mul_one, sub_self]⟩

end Diagonalization

end TrafficWatch
