import TrafficWatch.Scalar

/-!
# Pca — Rotation

Diagonalising a symmetric matrix by plane rotations.  A rotation in the plane of two coordinates is
chosen so that it makes the entry off the diagonal between them zero; `Diagonalization.sweep` does
this for every pair of coordinates in turn, and `Diagonalization.run` repeats sweeps until the entries
off the diagonal are negligible.  Alongside the matrix the rotations are gathered in a basis, whose
columns become the eigenvectors.
-/

namespace TrafficWatch

/-- A square matrix, row by row. -/
abbrev Square (α : Type) (n : Nat) := Vector (Vector α n) n

namespace Square

variable {α : Type} {n : Nat}

/-- The matrix with the given entries. -/
def ofFn (entry : Fin n → Fin n → α) : Square α n :=
  Vector.ofFn fun i => Vector.ofFn fun j => entry i j

/-- An entry. -/
def entry (m : Square α n) (i j : Fin n) : α :=
  m[i][j]

/-- The matrix with another entry at one place. -/
def withEntry (m : Square α n) (i j : Fin n) (x : α) : Square α n :=
  m.set i (m[i].set j x)

variable [Scalar α]

/-- The identity matrix. -/
def identity : Square α n :=
  ofFn fun i j => if i = j then Scalar.one else Scalar.zero

/-- Two entries turned by the angle with the given cosine and sine, where they stand. -/
def turn (m : Square α n) (a b : Fin n × Fin n) (cos sin : α) : Square α n :=
  let x := m.entry a.1 a.2
  let y := m.entry b.1 b.2
  (m.withEntry a.1 a.2 (cos * x - sin * y)).withEntry b.1 b.2 (sin * x + cos * y)

/-- Columns `p` and `q` turned by the angle with the given cosine and sine, row after row. -/
def turnColumns (m : Square α n) (p q : Fin n) (cos sin : α) : Square α n :=
  (List.finRange n).foldl (fun m k => m.turn (k, p) (k, q) cos sin) m

/-- Rows `p` and `q` turned by the angle with the given cosine and sine, column after column. -/
def turnRows (m : Square α n) (p q : Fin n) (cos sin : α) : Square α n :=
  (List.finRange n).foldl (fun m k => m.turn (p, k) (q, k) cos sin) m

/-- The pairs of coordinates, the smaller one first, in the order of rows. -/
def pairs (n : Nat) : List (Fin n × Fin n) :=
  (List.finRange n).flatMap fun p =>
    ((List.finRange n).filter fun q => p < q).map fun q => (p, q)

/-- The sum of the squares of the entries above the diagonal. -/
def offDiagonal (m : Square α n) : α :=
  Scalar.sum ((pairs n).map fun (p, q) => m.entry p q * m.entry p q)

/-- The entries on the diagonal. -/
def diagonal (m : Square α n) : List α :=
  (List.finRange n).map fun i => m.entry i i

/-- The sum of the squares of the entries on the diagonal. -/
def diagonalSquares (m : Square α n) : α :=
  Scalar.sum (m.diagonal.map fun x => x * x)

/-- A column. -/
def column (m : Square α n) (j : Fin n) : List α :=
  (List.finRange n).map fun i => m.entry i j

end Square

/-- A matrix on the way to diagonal form, and the rotations so far. -/
structure Diagonalization (α : Type) (n : Nat) where
  matrix : Square α n
  basis : Square α n

namespace Diagonalization

variable {α : Type} {n : Nat} [Scalar α]

/-- The start: no rotation yet. -/
def start (m : Square α n) : Diagonalization α n :=
  ⟨m, .identity⟩

/-- The tangent of the smaller angle that makes the entry `apq` zero. -/
def tangent (app aqq apq : α) : α :=
  let theta := (aqq - app) / ((Scalar.one + Scalar.one) * apq)
  Scalar.sign theta / (Scalar.abs theta + Scalar.sqrt (theta * theta + Scalar.one))

/-- The rotation in the plane of `p` and `q`, unless the entry between them is zero already. -/
def rotate (d : Diagonalization α n) (p q : Fin n) : Diagonalization α n :=
  let apq := d.matrix.entry p q
  if Scalar.isZero apq then d
  else
    let t := tangent (d.matrix.entry p p) (d.matrix.entry q q) apq
    let cos := Scalar.one / Scalar.sqrt (t * t + Scalar.one)
    let sin := t * cos
    ⟨(d.matrix.turnColumns p q cos sin).turnRows p q cos sin, d.basis.turnColumns p q cos sin⟩

/-- A rotation for every pair of coordinates. -/
def sweep (d : Diagonalization α n) : Diagonalization α n :=
  (Square.pairs n).foldl (fun d (p, q) => d.rotate p q) d

/-- Sweeps until the matrix is good enough, at most `limit`. -/
def run (isDone : Square α n → Bool) : Nat → Diagonalization α n → Diagonalization α n
  | 0, d => d
  | limit + 1, d => if isDone d.matrix then d else run isDone limit d.sweep

end Diagonalization

/-- Whether the entries of a matrix of doubles off the diagonal are negligible beside those on it. -/
def isNearlyDiagonal {n : Nat} (m : Square Float n) : Bool :=
  let epsilon : Float := 2.220446049250313e-16
  let least : Float := 2.2250738585072014e-308
  let diagonal := m.diagonalSquares
  let scale := if least < diagonal then diagonal else least
  m.offDiagonal ≤ epsilon * epsilon * scale

/-- The diagonal form of a symmetric matrix of doubles. -/
def diagonalize {n : Nat} (m : Square Float n) : Diagonalization Float n :=
  .run isNearlyDiagonal 100 (.start m)

end TrafficWatch
