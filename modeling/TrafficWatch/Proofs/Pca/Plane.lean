import Mathlib.LinearAlgebra.Matrix.Symmetric
import Mathlib.LinearAlgebra.Matrix.Trace
import Mathlib.LinearAlgebra.Matrix.NonsingularInverse
import Mathlib.Tactic.LinearCombination
import Mathlib.Tactic.FieldSimp
import TrafficWatch.Proofs.Pca.Rotation
import TrafficWatch.Proofs.Scalar

/-!
# Pca — Plane

A rotation as a matrix.  In exact arithmetic, to turn columns is to multiply by `Square.plane` from the
right (`Square.toMatrix_turnColumns`) and to turn rows is to multiply by its transpose from the left
(`Square.toMatrix_turnRows`), and the matrix is orthogonal (`Square.plane_transpose_mul_self`).
`Diagonalization.rotate` turns by an angle for which the entry between both coordinates vanishes
(`Diagonalization.exists_rotate_eq`).
-/

namespace TrafficWatch

open Matrix

variable {n : Nat}

namespace Square

/-- The matrix that an array of numbers stands for. -/
def toMatrix (m : Square ℝ n) : Matrix (Fin n) (Fin n) ℝ :=
  .of m.entry

@[simp]
theorem toMatrix_apply (m : Square ℝ n) (i j : Fin n) : m.toMatrix i j = m.entry i j := rfl

theorem entry_identity (i j : Fin n) : (identity : Square ℝ n).entry i j = if i = j then 1 else 0 :=
  entry_ofFn _ i j

@[simp]
theorem toMatrix_identity : (identity : Square ℝ n).toMatrix = 1 := by
  ext i j
  rw [toMatrix_apply, entry_identity, Matrix.one_apply]

/-- The rotation in the plane of two coordinates. -/
noncomputable def plane (p q : Fin n) (cos sin : ℝ) : Matrix (Fin n) (Fin n) ℝ :=
  (identity.turnColumns p q cos sin).toMatrix

variable {p q : Fin n}

theorem plane_apply (hpq : p ≠ q) (cos sin : ℝ) (i j : Fin n) :
    plane p q cos sin i j =
      if j = p then cos * (if i = p then 1 else 0) - sin * (if i = q then 1 else 0)
      else if j = q then sin * (if i = p then 1 else 0) + cos * (if i = q then 1 else 0)
      else if i = j then 1 else 0 := by
  rw [plane, toMatrix_apply, entry_turnColumns hpq, entry_identity, entry_identity, entry_identity]

/-- **To turn two columns is to multiply by the rotation.** -/
theorem toMatrix_turnColumns (hpq : p ≠ q) (m : Square ℝ n) (cos sin : ℝ) :
    (m.turnColumns p q cos sin).toMatrix = m.toMatrix * plane p q cos sin := by
  ext i j
  rw [toMatrix_apply, entry_turnColumns hpq, Matrix.mul_apply]
  simp only [plane_apply hpq, toMatrix_apply]
  split_ifs with hjp hjq
  · simp [mul_sub, Finset.sum_sub_distrib, mul_comm cos, mul_comm sin]
  · simp [mul_add, Finset.sum_add_distrib, mul_comm cos, mul_comm sin]
  · simp

/-- **To turn two rows is to multiply by the transpose of the rotation.** -/
theorem toMatrix_turnRows (hpq : p ≠ q) (m : Square ℝ n) (cos sin : ℝ) :
    (m.turnRows p q cos sin).toMatrix = (plane p q cos sin)ᵀ * m.toMatrix := by
  ext i j
  rw [toMatrix_apply, entry_turnRows hpq, Matrix.mul_apply]
  simp only [Matrix.transpose_apply, plane_apply hpq, toMatrix_apply]
  split_ifs with hip hiq
  · simp [sub_mul, Finset.sum_sub_distrib]
  · simp [add_mul, Finset.sum_add_distrib]
  · simp

/-- **A rotation is orthogonal.** -/
theorem plane_transpose_mul_self (hpq : p ≠ q) {cos sin : ℝ} (h : cos * cos + sin * sin = 1) :
    (plane p q cos sin)ᵀ * plane p q cos sin = 1 := by
  change _ * (identity.turnColumns p q cos sin).toMatrix = 1
  rw [← toMatrix_turnRows hpq]
  ext i j
  rw [toMatrix_apply, entry_turnRows hpq, Matrix.one_apply]
  simp only [entry_turnColumns hpq, entry_identity]
  have hqp := hpq.symm
  -- off the plane the identity is left; in it the squares add up on the diagonal and cancel elsewhere
  split_ifs <;> simp_all <;> first | linear_combination h | ring

end Square

namespace Diagonalization

/-! ### The angle -/

theorem mul_self_add_one_pos (x : ℝ) : 0 < x * x + 1 :=
  add_pos_of_nonneg_of_pos (mul_self_nonneg x) one_pos

theorem sqrt_mul_self_add_one (x : ℝ) : √(x * x + 1) * √(x * x + 1) = x * x + 1 :=
  Real.mul_self_sqrt (mul_self_add_one_pos x).le

/-- The smaller root of the equation for the tangent. -/
theorem root_spec (theta : ℝ) :
    let t := Scalar.sign theta / (|theta| + √(theta * theta + 1))
    t * t + 2 * theta * t = 1 := by
  intro t
  have hroot := sqrt_mul_self_add_one theta
  have hsign := Scalar.sign_mul_sign theta
  have habs := Scalar.sign_mul_abs theta
  have hsquare := abs_mul_abs_self theta
  have hpositive : 0 < |theta| + √(theta * theta + 1) :=
    add_pos_of_nonneg_of_pos (abs_nonneg theta) (Real.sqrt_pos.mpr (mul_self_add_one_pos theta))
  -- the denominator is the reciprocal of the difference of its terms
  have ht : t = Scalar.sign theta * √(theta * theta + 1) - theta := by
    rw [div_eq_iff hpositive.ne']
    linear_combination (-Scalar.sign theta) * hroot - (√(theta * theta + 1) + |theta|) * habs
      + Scalar.sign theta * hsquare
  rw [ht]
  linear_combination √(theta * theta + 1) * √(theta * theta + 1) * hsign + hroot

/-- The tangent is that of an angle for which the entry vanishes. -/
theorem tangent_spec (app aqq : ℝ) {apq : ℝ} (h : apq ≠ 0) :
    let t := tangent app aqq apq
    t * (app - aqq) + (1 - t * t) * apq = 0 := by
  intro t
  have ht : t * t + 2 * ((aqq - app) / ((1 + 1) * apq)) * t = 1 := root_spec _
  field_simp at ht
  linear_combination (-1 / 2) * ht

/-- **What a rotation does**: nothing if the entry is zero already, and otherwise it turns columns and
rows by an angle that takes the entry to zero. -/
theorem exists_rotate_eq (d : Diagonalization ℝ n) {p q : Fin n} (h : d.matrix.entry p q ≠ 0) :
    ∃ cos sin : ℝ, cos * cos + sin * sin = 1 ∧
      cos * sin * (d.matrix.entry p p - d.matrix.entry q q) +
        (cos * cos - sin * sin) * d.matrix.entry p q = 0 ∧
      d.rotate p q = ⟨(d.matrix.turnColumns p q cos sin).turnRows p q cos sin,
        d.basis.turnColumns p q cos sin⟩ := by
  let t : ℝ := tangent (d.matrix.entry p p) (d.matrix.entry q q) (d.matrix.entry p q)
  let cos : ℝ := 1 / √(t * t + 1)
  have hpositive : 0 < √(t * t + 1) := Real.sqrt_pos.mpr (mul_self_add_one_pos t)
  have hcos : cos * cos * (t * t + 1) = 1 := by
    rw [← sqrt_mul_self_add_one t, mul_mul_mul_comm, one_div_mul_cancel hpositive.ne', one_mul]
  refine ⟨cos, t * cos, by linear_combination hcos, ?_, ?_⟩
  · have ht := tangent_spec (d.matrix.entry p p) (d.matrix.entry q q) h
    linear_combination cos * cos * ht
  · rw [rotate, if_neg (Scalar.real_isZero.not.mpr h)]
    rfl

end Diagonalization

end TrafficWatch
