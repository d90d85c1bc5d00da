import TrafficWatch.Pca.Fit
import TrafficWatch.Proofs.Double.Size

/-!
# Pca — Products

What the products of pairs can add up to.  A library that multiplies matrices adds in any order and in
any groups, and it may round a product only together with the sum that it is added to (`SumsTo`).
Rounding errs no more than by the smaller of the two numbers that are added, so however it goes about
it, the sum of `n` products has a value that is not farther from zero than `n * n` times the greatest of
them (`SumsTo.abs_value_le`).
-/

namespace TrafficWatch

open Double (IsRounded Within unit value)

/-- A product is added before it is rounded.  What becomes of numbers that are not finite is left
open. -/
def IsFused (a b x y : Float) : Prop :=
  a.isFinite = true → b.isFinite = true → x.isFinite = true → IsRounded (value a * value b + value x) y

/-- **What the products of pairs can add up to.** -/
inductive SumsTo : List (Float × Float) → Float → Prop where
  | zero : SumsTo [] 0.0
  | product (a b : Float) : SumsTo [(a, b)] (a * b)
  | add {ps qs : List (Float × Float)} {x y : Float} (hx : SumsTo ps x) (hy : SumsTo qs y) :
      SumsTo (ps ++ qs) (x + y)
  | fused {ps : List (Float × Float)} {a b x y : Float} (hx : SumsTo ps x) (h : IsFused a b x y) :
      SumsTo (ps ++ [(a, b)]) y
  | reordered {ps qs : List (Float × Float)} {x : Float} (hx : SumsTo ps x) (h : ps.Perm qs) :
      SumsTo qs x

/-- What is added up is always a sum of all products. -/
def ProductSum.IsLawful (add : ProductSum) : Prop :=
  ∀ pairs, SumsTo pairs (add pairs)

/-- To add one product after the other is one way. -/
theorem ProductSum.isLawful_inOrder : inOrder.IsLawful := by
  intro pairs
  induction pairs using List.reverseRecOn with
  | nil => exact .zero
  | append_singleton ps p ih =>
      rw [inOrder, Scalar.sum, List.map_append, List.foldl_append]
      exact .add ih (.product p.1 p.2)

/-! ### How great a sum can be -/

theorem squares_le {n m : ℕ} (h : n ≤ m) {u : ℝ} (hu : 0 ≤ u) : (n : ℝ) ^ 2 * u ≤ (m : ℝ) ^ 2 * u :=
  mul_le_mul_of_nonneg_right (pow_le_pow_left₀ (Nat.cast_nonneg n) (by exact_mod_cast h) 2) hu

/-- Two sums with the smaller of them once more. -/
theorem add_add_min_le {a b u : ℝ} (hu : 0 ≤ u) {n m : ℕ} (ha : a ≤ n ^ 2 * u) (hb : b ≤ m ^ 2 * u) :
    a + b + min a b ≤ ((n + m : ℕ) : ℝ) ^ 2 * u := by
  have hn : (0 : ℝ) ≤ n := Nat.cast_nonneg n
  have hm : (0 : ℝ) ≤ m := Nat.cast_nonneg m
  have hmin : min a b ≤ 2 * n * m * u := by
    rcases le_total (n : ℝ) m with hle | hle
    · refine (min_le_left a b).trans (ha.trans (mul_le_mul_of_nonneg_right ?_ hu))
      nlinarith
    · refine (min_le_right a b).trans (hb.trans (mul_le_mul_of_nonneg_right ?_ hu))
      nlinarith
  calc a + b + min a b ≤ n ^ 2 * u + m ^ 2 * u + 2 * n * m * u := by gcongr
    _ = ((n + m : ℕ) : ℝ) ^ 2 * u := by push_cast; ring

/-- A sum errs by no more than the smaller of the two numbers. -/
theorem abs_value_add_le {x y : Float} (hx : x.isFinite = true) (hy : y.isFinite = true) {b : ℝ}
    (hle : |(value x : ℝ)| + |(value y : ℝ)| + min |(value x : ℝ)| |(value y : ℝ)| ≤ b)
    (hb : b < unit 1024) : (x + y).isFinite = true ∧ |(value (x + y) : ℝ)| ≤ b := by
  have hrounded := Double.isRounded_add hx hy
  have htriangle := abs_add_le (value x : ℝ) (value y)
  -- the nearer of the two is the one with the greater value
  obtain ⟨z, hz, hnear⟩ : ∃ z : Float, z.isFinite = true ∧
      |(value x + value y : ℝ) - value z| = min |(value x : ℝ)| |(value y : ℝ)| := by
    rcases le_total |(value x : ℝ)| |(value y : ℝ)| with h | h
    · exact ⟨y, hy, by rw [add_sub_cancel_right, min_eq_left h]⟩
    · exact ⟨x, hx, by rw [add_sub_cancel_left, min_eq_right h]⟩
  obtain ⟨hfinite, herror⟩ := hrounded.near_value hz (by linarith)
  refine ⟨hfinite, ?_⟩
  have hpart := abs_sub_abs_le_abs_sub (value (x + y) : ℝ) (value x + value y)
  linarith

/-- A product that is added before it is rounded errs by no more than itself. -/
theorem IsFused.abs_value_le {a b x y : Float} (h : IsFused a b x y) (ha : a.isFinite = true)
    (hb : b.isFinite = true) (hx : x.isFinite = true) {c : ℝ}
    (hle : |(value x : ℝ)| + 2 * |(value a * value b : ℝ)| ≤ c) (hc : c < unit 1024) :
    y.isFinite = true ∧ |(value y : ℝ)| ≤ c := by
  have htriangle := abs_add_le (value a * value b : ℝ) (value x)
  have hnear : |(value a * value b + value x : ℝ) - value x| = |(value a * value b : ℝ)| := by
    rw [add_sub_cancel_right]
  obtain ⟨hfinite, herror⟩ := (h ha hb hx).near_value hx (by linarith)
  refine ⟨hfinite, ?_⟩
  have hpart := abs_sub_abs_le_abs_sub (value y : ℝ) (value a * value b + value x)
  linarith

section Bounds

variable {a b y : Float} {k l : ℤ}

theorem abs_product_le (ha : Within k a) (hb : Within l b) :
    |(value a * value b : ℝ)| ≤ unit (k + l) := by
  rw [abs_mul, Double.unit_add]
  exact mul_le_mul ha.le hb.le (abs_nonneg _) (Double.unit_pos _).le

/-- A product that is rounded alone. -/
theorem Double.IsRounded.product_le (h : IsRounded (value a * value b) y) (ha : Within k a)
    (hb : Within l b) (hlow : -1074 ≤ k + l) (hhigh : unit (k + l) < unit 1024) :
    y.isFinite = true ∧ |(value y : ℝ)| ≤ unit (k + l) := by
  have hsmall := Double.unit_lt_iff.mp hhigh
  have hwithin := h.within (abs_product_le ha hb) hlow (by omega)
  exact ⟨hwithin.finite, hwithin.le⟩

end Bounds

namespace SumsTo

variable {ps : List (Float × Float)} {x : Float} {k l : ℤ}

/-- **However products are added up**, the sum has a value, and not a great one. -/
theorem abs_value_le (h : SumsTo ps x) (hps : ∀ p ∈ ps, Within k p.1 ∧ Within l p.2)
    (hlow : -1074 ≤ k + l) (hlength : (ps.length : ℝ) ^ 2 * unit (k + l) < unit 1024) :
    x.isFinite = true ∧ |(value x : ℝ)| ≤ ps.length ^ 2 * unit (k + l) := by
  have hpos := Double.unit_pos (k + l)
  induction h with
  | zero => exact ⟨rfl, by simp [Double.value_zero]⟩
  | product a b =>
      obtain ⟨ha, hb⟩ := hps _ List.mem_cons_self
      rw [List.length_singleton, Nat.cast_one, one_pow, one_mul] at hlength ⊢
      exact (Double.isRounded_mul ha.finite hb.finite).product_le ha hb hlow hlength
  | @add ps qs x y _ _ ihx ihy =>
      rw [List.forall_mem_append] at hps
      rw [List.length_append] at hlength ⊢
      obtain ⟨hx, hlex⟩ := ihx hps.1 ((squares_le (Nat.le_add_right _ _) hpos.le).trans_lt hlength)
      obtain ⟨hy, hley⟩ := ihy hps.2 ((squares_le (Nat.le_add_left _ _) hpos.le).trans_lt hlength)
      exact abs_value_add_le hx hy (add_add_min_le hpos.le hlex hley) hlength
  | @fused ps a b x y hx h ih =>
      rw [List.forall_mem_append] at hps
      obtain ⟨ha, hb⟩ := hps.2 _ List.mem_cons_self
      rw [List.length_append, List.length_singleton] at hlength ⊢
      obtain ⟨hx, hle⟩ := ih hps.1 ((squares_le (Nat.le_add_right _ 1) hpos.le).trans_lt hlength)
      rcases Nat.eq_zero_or_pos ps.length with hnone | hsome
      · -- the first product is rounded alone
        have hzero : (value x : ℝ) = 0 := abs_eq_zero.mp
          (le_antisymm (by simpa [hnone] using hle) (abs_nonneg _))
        have hrounded := h ha.finite hb.finite hx
        rw [hzero, add_zero] at hrounded
        rw [hnone, Nat.zero_add, Nat.cast_one, one_pow, one_mul] at hlength ⊢
        exact hrounded.product_le ha hb hlow hlength
      · refine h.abs_value_le ha.finite hb.finite hx ?_ hlength
        have hone : (1 : ℝ) ≤ ps.length := by exact_mod_cast hsome
        have hproduct := abs_product_le ha hb
        calc |(value x : ℝ)| + 2 * |(value a * value b : ℝ)|
            ≤ ps.length ^ 2 * unit (k + l) + 2 * unit (k + l) := by gcongr
          _ ≤ ((ps.length + 1 : ℕ) : ℝ) ^ 2 * unit (k + l) := by
              push_cast
              nlinarith
  | reordered _ hperm ih =>
      rw [← hperm.length_eq] at hlength ⊢
      exact ih (fun p hp => hps p (hperm.mem_iff.mp hp)) hlength

/-- **Sums of products that a machine word counts** stay within a bound. -/
theorem within (h : SumsTo ps x) (hps : ∀ p ∈ ps, Within k p.1 ∧ Within l p.2) (hlow : -1074 ≤ k + l)
    (hhigh : k + l ≤ 895) (hlength : ps.length < 2 ^ 64) : Within (k + l + 128) x := by
  have hsquare : (ps.length : ℝ) ^ 2 * unit (k + l) ≤ unit (k + l + 128) := by
    have hcast : (ps.length : ℝ) ≤ 2 ^ 64 := by exact_mod_cast hlength.le
    calc (ps.length : ℝ) ^ 2 * unit (k + l) ≤ (2 ^ 64) ^ 2 * unit (k + l) :=
          mul_le_mul_of_nonneg_right (pow_le_pow_left₀ (Nat.cast_nonneg _) hcast 2)
            (Double.unit_pos _).le
      _ = unit 128 * unit (k + l) := by rw [Double.unit_ofNat]; norm_num
      _ = unit (k + l + 128) := by rw [← Double.unit_add, add_comm]
  obtain ⟨hfinite, hle⟩ := h.abs_value_le hps hlow
    (hsquare.trans_lt (Double.unit_lt_iff.mpr (by omega)))
  exact ⟨hfinite, hle.trans hsquare⟩

end SumsTo

end TrafficWatch
