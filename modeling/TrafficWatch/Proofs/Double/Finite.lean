import TrafficWatch.Proofs.Double.Sign

/-!
# Double — Finite

What is not finite never becomes finite again: if a sum, a difference or a product is finite, then
so are both operands (`isFinite_of_add`, `isFinite_of_sub`, `isFinite_of_mul`), and if a quotient is
finite, then so is what was divided (`isFinite_of_div`).  Sums and quotients of what is not negative
are not negative, nor is a square, so what is below a bound is finite (`Unsigned.isFinite_of_lt`).
-/

namespace TrafficWatch.Double

open Float.Model (Format UnpackedFloat)
open Float.Model.UnpackedFloat (Sign)

theorem isFinite_of_pack {u : UnpackedFloat} (h : (pack u).isFinite = true) :
    u.isFinite = true := by
  rcases u with (_ | _) | _ | _ | _
  · exact absurd h Bool.false_ne_true
  · exact absurd h Bool.false_ne_true
  · exact absurd h Bool.false_ne_true
  · rfl
  · rfl

theorem isFinite_of_add {x y : Float} (h : (x + y).isFinite = true) :
    x.isFinite = true ∧ y.isFinite = true := by
  replace h : (UnpackedFloat.add .binary64 (parts x) (parts y)).isFinite = true :=
    isFinite_of_pack h
  change (parts x).isFinite = true ∧ (parts y).isFinite = true
  generalize parts x = u, parts y = v at h ⊢
  rcases u with (_ | _) | _ | _ | _ <;> rcases v with (_ | _) | _ | _ | _
  all_goals first
    | exact ⟨rfl, rfl⟩
    | exact absurd h Bool.false_ne_true

theorem isFinite_of_sub {x y : Float} (h : (x - y).isFinite = true) :
    x.isFinite = true ∧ y.isFinite = true := by
  replace h : (UnpackedFloat.sub .binary64 (parts x) (parts y)).isFinite = true :=
    isFinite_of_pack h
  change (parts x).isFinite = true ∧ (parts y).isFinite = true
  generalize parts x = u, parts y = v at h ⊢
  rcases u with (_ | _) | _ | _ | _ <;> rcases v with (_ | _) | _ | _ | _
  all_goals first
    | exact ⟨rfl, rfl⟩
    | exact absurd h Bool.false_ne_true

theorem isFinite_of_mul {x y : Float} (h : (x * y).isFinite = true) :
    x.isFinite = true ∧ y.isFinite = true := by
  replace h : (UnpackedFloat.mul .binary64 (parts x) (parts y)).isFinite = true :=
    isFinite_of_pack h
  change (parts x).isFinite = true ∧ (parts y).isFinite = true
  generalize parts x = u, parts y = v at h ⊢
  rcases u with (_ | _) | _ | _ | _ <;> rcases v with (_ | _) | _ | _ | _
  all_goals first
    | exact ⟨rfl, rfl⟩
    | exact absurd h Bool.false_ne_true

theorem isFinite_of_div {x y : Float} (h : (x / y).isFinite = true) : x.isFinite = true := by
  replace h : (UnpackedFloat.div .binary64 (parts x) (parts y)).isFinite = true :=
    isFinite_of_pack h
  change (parts x).isFinite = true
  generalize parts x = u, parts y = v at h ⊢
  rcases u with (_ | _) | _ | _ | _ <;> rcases v with (_ | _) | _ | _ | _
  all_goals first
    | rfl
    | exact absurd h Bool.false_ne_true

/-- If a sum is finite, so is everything that was added. -/
theorem isFinite_of_foldl_add {xs : List Float} {a : Float}
    (h : (xs.foldl (· + ·) a).isFinite = true) :
    a.isFinite = true ∧ ∀ x ∈ xs, x.isFinite = true := by
  induction xs generalizing a with
  | nil => exact ⟨h, fun x hx => absurd hx List.not_mem_nil⟩
  | cons x xs ih =>
      obtain ⟨hsum, hxs⟩ := ih h
      obtain ⟨ha, hx⟩ := isFinite_of_add hsum
      exact ⟨ha, List.forall_mem_cons.mpr ⟨hx, hxs⟩⟩

/-! ### What is not negative -/

/-- Not a number, or one whose sign is not set. -/
def Unsigned (x : Float) : Prop :=
  sign? x ≠ some .negative

theorem unsigned_ofNat (n : Nat) : Unsigned (Float.ofNat n) := by
  rw [Unsigned, sign?_ofNat]
  simp

theorem unsigned_zero : Unsigned 0.0 := by
  have h : sign? 0.0 = some .positive := rfl
  rw [Unsigned, h]
  simp

theorem unsigned_pack {u : UnpackedFloat} (h : signOfParts? u ≠ some .negative) :
    Unsigned (pack u) := by
  rwa [Unsigned, sign?_pack]

theorem signOfParts?_normalize {m : Int} (hm : 0 ≤ m) (e : Int) :
    signOfParts? (UnpackedFloat.normalize .binary64 m e .positive) = some .positive := by
  unfold UnpackedFloat.normalize
  split
  · rename_i h
    exact absurd (Int.compare_eq_lt.mp h) (Int.not_lt.mpr hm)
  · rfl
  · exact sign_round _ _ _ _ _

theorem Unsigned.add {x y : Float} (hx : Unsigned x) (hy : Unsigned y) : Unsigned (x + y) := by
  refine unsigned_pack (u := UnpackedFloat.add .binary64 (parts x) (parts y)) ?_
  unfold Unsigned sign? at hx hy
  generalize parts x = u, parts y = v at hx hy ⊢
  rcases u with (_ | _) | _ | (_ | _) | ⟨_ | _, m, e, hm⟩ <;>
    rcases v with (_ | _) | _ | (_ | _) | ⟨_ | _, n, f, hn⟩
  all_goals first
    | exact absurd rfl hx
    | exact absurd rfl hy
    | exact fun h => by cases h
    | skip
  -- what is left is the sum of two positive numbers
  refine fun h => absurd ((signOfParts?_normalize ?_ _).symm.trans h) (by simp)
  exact Int.add_nonneg (Int.natCast_nonneg _) (Int.natCast_nonneg _)

theorem Unsigned.mul_self (x : Float) : Unsigned (x * x) := by
  refine unsigned_pack (u := UnpackedFloat.mul .binary64 (parts x) (parts x)) ?_
  rcases parts x with (_ | _) | _ | (_ | _) | ⟨_ | _, m, e, hm⟩
  all_goals first
    | exact fun h => by cases h
    | exact fun h => absurd ((sign_round _ _ _ _ _).symm.trans h) (by simp)

theorem Unsigned.div {x y : Float} (hx : Unsigned x) (hy : Unsigned y) : Unsigned (x / y) := by
  refine unsigned_pack (u := UnpackedFloat.div .binary64 (parts x) (parts y)) ?_
  unfold Unsigned sign? at hx hy
  generalize parts x = u, parts y = v at hx hy ⊢
  rcases u with (_ | _) | _ | (_ | _) | ⟨_ | _, m, e, hm⟩ <;>
    rcases v with (_ | _) | _ | (_ | _) | ⟨_ | _, n, f, hn⟩
  all_goals first
    | exact absurd rfl hx
    | exact absurd rfl hy
    | exact fun h => by cases h
    | exact fun h => absurd ((sign_round _ _ _ _ _).symm.trans h) (by simp)

theorem unsigned_foldl_add {xs : List Float} {a : Float} (ha : Unsigned a)
    (hxs : ∀ x ∈ xs, Unsigned x) : Unsigned (xs.foldl (· + ·) a) := by
  induction xs generalizing a with
  | nil => exact ha
  | cons x xs ih =>
      obtain ⟨hx, hxs⟩ := List.forall_mem_cons.mp hxs
      exact ih (ha.add hx) hxs

/-- What is not negative and below something is finite. -/
theorem Unsigned.isFinite_of_lt {x y : Float} (hx : Unsigned x) (h : x < y) :
    x.isFinite = true := by
  rw [lt_iff] at h
  change (parts x).isFinite = true
  unfold Unsigned sign? at hx
  generalize parts x = u, parts y = v at hx h ⊢
  rcases u with (_ | _) | _ | _ | _
  · exact absurd rfl hx
  · rcases v with (_ | _) | _ | _ | _ <;> cases h
  · cases h
  · rfl
  · rfl

end TrafficWatch.Double
