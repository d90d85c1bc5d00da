import TrafficWatch.Proofs.Double.Size
import TrafficWatch.Pca.Rotation

/-!
# Pca — Angle

The angles by which doubles are rotated.  Cosine and sine are rounded, so that a rotation stretches,
but hardly (`IsTurn`).  The angle that a rotation takes from three entries of a matrix is such a one,
however great an intermediate result is (`isTurn_of_tangent`), and turning two entries by it adds
little to the sum of their squares (`IsTurn.turn`).
-/

namespace TrafficWatch

open Double (Within AtLeast IsRounded unit value isShort_zero isShort_unit)

/-- The cosine and the sine of an angle, rounded. -/
structure IsTurn (cos sin : Float) : Prop where
  within_cos : Within 0 cos
  within_sin : Within 0 sin
  length : (value cos : ℝ) ^ 2 + (value sin : ℝ) ^ 2 ≤ 1 + unit (-11)

/-! ### Errors -/

/-- How far a result that is not great can be from what was rounded. -/
theorem error_of_isRounded {v : ℝ} {x : Float} (h : IsRounded v x) (hx : x.isFinite = true)
    (hv : |v| ≤ 2) : |value x - v| ≤ unit (-50) := by
  have hone : unit (-53) * |v| ≤ unit (-52) := by
    calc unit (-53) * |v| ≤ unit (-53) * 2 := mul_le_mul_of_nonneg_left hv (Double.unit_pos _).le
      _ = unit (-53 + 1) := by rw [Double.unit_add_one]; ring
  have htwo : unit (-1075) ≤ unit (-52) := Double.unit_le_iff.mpr (by norm_num)
  have hsum : unit (-50) = 4 * unit (-52) := by
    rw [Double.unit_eq, Double.unit_eq]
    norm_num
  have := h.error_le hx
  have := Double.unit_pos (-52)
  linarith

/-- Squares of numbers that are near to each other. -/
theorem sq_le_of_near {x y e b : ℝ} (h : |x - y| ≤ e) (hy : |y| ≤ b) :
    x ^ 2 ≤ y ^ 2 + e * (2 * b + e) ∧ y ^ 2 ≤ x ^ 2 + e * (2 * b + e) := by
  have hsum : |x + y| ≤ 2 * b + e := by
    calc |x + y| = |(x - y) + 2 * y| := by congr 1; ring
      _ ≤ |x - y| + |2 * y| := abs_add_le _ _
      _ ≤ 2 * b + e := by rw [abs_mul, abs_two]; linarith
  have hproduct : |x ^ 2 - y ^ 2| ≤ e * (2 * b + e) := by
    rw [sq_sub_sq, abs_mul, mul_comm |x + y|]
    exact mul_le_mul h hsum (abs_nonneg _) ((abs_nonneg _).trans h)
  rw [abs_le] at hproduct
  constructor <;> linarith

/-- A cosine and a sine that nearly fit a tangent have nearly the length one. -/
theorem length_le {t s c n e : ℝ} (hsmall : e ≤ 1 / 100) (ht : |t| ≤ 1)
    (hs : t ^ 2 + 1 ≤ s ^ 2 + 7 * e) (hslow : 1 ≤ s) (hshigh : s ≤ 2) (hc : |c - 1 / s| ≤ e)
    (hone : |c| ≤ 1) (hn : |n - t * c| ≤ e) : c ^ 2 + n ^ 2 ≤ 1 + 15 * e := by
  have he : 0 ≤ e := (abs_nonneg _).trans hc
  have hcosine : |c * s - 1| ≤ 2 * e := by
    have hdiff : c * s - 1 = (c - 1 / s) * s := by field_simp
    rw [hdiff, abs_mul, abs_of_pos (by linarith : 0 < s), mul_comm 2 e]
    exact mul_le_mul hc hshigh (by linarith) he
  have hproduct := (sq_le_of_near hcosine abs_one.le).1
  have hsine := (sq_le_of_near hn (abs_mul t c ▸ mul_le_one₀ ht (abs_nonneg c) hone)).1
  have hsq : c ^ 2 ≤ 1 := (sq_le_one_iff_abs_le_one c).mpr hone
  have hscaled : c ^ 2 * (t ^ 2 + 1) ≤ c ^ 2 * (s ^ 2 + 7 * e) :=
    mul_le_mul_of_nonneg_left hs (sq_nonneg c)
  have hrest : c ^ 2 * (7 * e) ≤ 7 * e := mul_le_of_le_one_left (by linarith) hsq
  have hsquare : e * e ≤ e * (1 / 100) := mul_le_mul_of_nonneg_left hsmall he
  nlinarith

/-! ### The angle of a rotation -/

section Tangent

variable {app aqq apq : Float} (happ : Within 500 app) (haqq : Within 500 aqq)
  (hapq : Within 500 apq) (hzero : value apq ≠ 0)
include happ haqq hapq hzero

/-- The quotient of which the tangent is taken is a number, which may be infinite. -/
theorem isNaN_theta : ((aqq - app) / ((1.0 + 1.0) * apq)).isNaN = false := by
  have hdifference := haqq.sub happ (by norm_num) (by norm_num)
  have htwo := Double.within_one.add Double.within_one (by norm_num) (by norm_num)
  have hdouble := htwo.mul hapq (by norm_num) (by norm_num)
  have hvalue : (value (1.0 + 1.0) : ℝ) = 2 := by
    have hparts : Double.parts (1.0 + 1.0) = .finite .positive (2 ^ 52) (-51) (by decide) := rfl
    rw [value, hparts, Double.valueOfParts_finite, Double.oneOfSign_positive, one_mul, Double.unit_eq]
    norm_num
  have hnonzero : value ((1.0 + 1.0) * apq) ≠ 0 := by
    refine (Double.isRounded_mul htwo.finite hapq.finite).value_ne_zero hdouble.finite ?_
    have hle := Double.le_abs_value hapq.finite hzero
    rw [hvalue, abs_mul, abs_two]
    linarith [abs_nonneg (value apq : ℝ)]
  exact Double.isNaN_div (Double.isNaN_of_isFinite hdifference.finite) hdouble.finite hnonzero

/-- **The tangent is at most one**, however great the quotient is of which it is taken. -/
theorem within_tangent : Within 0 (Diagonalization.tangent app aqq apq) := by
  have hnumber := isNaN_theta happ haqq hapq hzero
  change Within 0 (Scalar.sign ((aqq - app) / ((1.0 + 1.0) * apq)) /
    (((aqq - app) / ((1.0 + 1.0) * apq)).abs +
      ((aqq - app) / ((1.0 + 1.0) * apq) * ((aqq - app) / ((1.0 + 1.0) * apq)) + 1.0).sqrt))
  generalize (aqq - app) / ((1.0 + 1.0) * apq) = theta at hnumber
  have hone := isShort_unit (t := 0) (by norm_num)
  have hpos := (Double.unit_pos 0).le
  have hsquare : AtLeast 0 (theta * theta) :=
    .mul_self hnumber isShort_zero le_rfl fun _ => mul_self_nonneg _
  have hsum : AtLeast (unit 0) (theta * theta + 1.0) :=
    hsquare.add Double.atLeast_one hone hpos (zero_add _).ge
  have hroot : AtLeast (unit 0) (theta * theta + 1.0).sqrt :=
    hsum.sqrt hone hpos (by rw [Double.unit_zero, mul_one])
  have hdenominator := (AtLeast.abs hnumber).add hroot hone hpos (zero_add _).ge
  have hsign : Within 0 (Scalar.sign theta) := by
    change Within 0 (if theta.isNaN then theta else if Decimal.isNegative theta then -1.0 else 1.0)
    rw [hnumber, if_neg Bool.false_ne_true]
    split
    · exact Double.within_neg_one
    · exact Double.within_one
  exact hsign.div hdenominator (by norm_num) (by norm_num)

end Tangent

section Rounded

variable {t : Float} (ht : Within 0 t)
include ht

/-- The sum of one and the square of a tangent lies between one and two. -/
theorem within_sum : Within 1 (t * t + 1.0) ∧ AtLeast (unit 0) (t * t + 1.0) := by
  have hsquare := ht.mul ht (by norm_num) (by norm_num)
  have hlow : AtLeast 0 (t * t) :=
    .mul_self (Double.isNaN_of_isFinite ht.finite) isShort_zero le_rfl fun _ => mul_self_nonneg _
  exact ⟨hsquare.add Double.within_one (by norm_num) (by norm_num),
    hlow.add Double.atLeast_one (isShort_unit (by norm_num)) (Double.unit_pos 0).le (zero_add _).ge⟩

/-- So does its root. -/
theorem within_root : Within 1 (t * t + 1.0).sqrt ∧ AtLeast (unit 0) (t * t + 1.0).sqrt := by
  obtain ⟨hsum, hlow⟩ := within_sum ht
  refine ⟨?_, hlow.sqrt (isShort_unit (by norm_num)) (Double.unit_pos 0).le ?_⟩
  · have hnonneg := (Double.unit_pos 0).le.trans (hlow.le_value hsum.finite)
    refine (Double.isRounded_sqrt hsum.finite (by exact_mod_cast hnonneg)).within ?_
      (by norm_num) (by norm_num)
    rw [abs_of_nonneg (Real.sqrt_nonneg _), Real.sqrt_le_left (Double.unit_pos 1).le]
    calc (value (t * t + 1.0) : ℝ) ≤ unit 1 := (le_abs_self _).trans hsum.le
      _ ≤ unit 1 ^ 2 := by rw [Double.unit_eq]; norm_num
  · rw [Double.unit_zero, mul_one]

theorem within_cos : Within 0 (1.0 / (t * t + 1.0).sqrt) :=
  Double.within_one.div (within_root ht).2 (by norm_num) (by norm_num)

/-- The square of the root is nearly that of one and the square of the tangent. -/
theorem root_near :
    (value t : ℝ) ^ 2 + 1 ≤ (value (t * t + 1.0).sqrt : ℝ) ^ 2 + 7 * unit (-50) := by
  obtain ⟨hsum, hlow⟩ := within_sum ht
  have hsquare := ht.mul ht (by norm_num) (by norm_num)
  have htwo : unit 1 = 2 := by rw [Double.unit_eq, zpow_one]
  have hone : (1 : ℝ) ≤ value (t * t + 1.0) := Double.unit_zero ▸ hlow.le_value hsum.finite
  have hle : (value (t * t + 1.0) : ℝ) ≤ 2 := htwo ▸ (le_abs_self _).trans hsum.le
  have htangent := Double.unit_zero ▸ ht.le
  have hroothigh : |√(value (t * t + 1.0) : ℝ)| ≤ 2 := by
    rw [abs_of_nonneg (Real.sqrt_nonneg _), Real.sqrt_le_left (by norm_num)]
    linarith
  have h₁ : |(value (t * t) : ℝ) - value t * value t| ≤ unit (-50) := by
    refine error_of_isRounded (Double.isRounded_mul ht.finite ht.finite) hsquare.finite ?_
    rw [abs_mul]
    exact (mul_le_one₀ htangent (abs_nonneg _) htangent).trans one_le_two
  have h₂ : |(value (t * t + 1.0) : ℝ) - (value (t * t) + 1)| ≤ unit (-50) := by
    have hrounded := Double.isRounded_add hsquare.finite Double.within_one.finite
    rw [Double.value_one, Rat.cast_one] at hrounded
    refine error_of_isRounded hrounded hsum.finite ((abs_add_le _ _).trans ?_)
    have hle := hsquare.le
    rw [add_zero, Double.unit_zero] at hle
    rw [abs_one]
    linarith
  have h₃ := (sq_le_of_near (error_of_isRounded (Double.isRounded_sqrt hsum.finite
    (by exact_mod_cast zero_le_one.trans hone)) (within_root ht).1.finite hroothigh) hroothigh).2
  have hsmall : unit (-50) * unit (-50) ≤ unit (-50) := by
    rw [← Double.unit_add]
    exact Double.unit_le_iff.mpr (by norm_num)
  rw [Real.sq_sqrt (by linarith)] at h₃
  rw [abs_le] at h₁ h₂
  linarith

/-- **The angle of a rotation** is one by which doubles can be turned. -/
theorem isTurn_of_tangent :
    IsTurn (1.0 / (t * t + 1.0).sqrt) (t * (1.0 / (t * t + 1.0).sqrt)) := by
  obtain ⟨hroot, hlow⟩ := within_root ht
  have hcos := within_cos ht
  have hsin := ht.mul hcos (by norm_num) (by norm_num)
  have htwo : unit 1 = 2 := by rw [Double.unit_eq, zpow_one]
  have hone : (1 : ℝ) ≤ value (t * t + 1.0).sqrt :=
    Double.unit_zero ▸ hlow.le_value hroot.finite
  have htangent := Double.unit_zero ▸ ht.le
  have hcosine := Double.unit_zero ▸ hcos.le
  refine ⟨hcos, hsin, ?_⟩
  have hquotient : |(value (1.0 / (t * t + 1.0).sqrt) : ℝ) - 1 / value (t * t + 1.0).sqrt| ≤
      unit (-50) := by
    have hnonzero : (value (t * t + 1.0).sqrt : ℝ) ≠ 0 := by linarith
    have hrounded := Double.isRounded_div Double.within_one.finite hroot.finite
      (by exact_mod_cast hnonzero)
    rw [Double.value_one, Rat.cast_one] at hrounded
    refine error_of_isRounded hrounded hcos.finite ?_
    rw [abs_of_nonneg (by positivity)]
    exact ((div_le_one (by linarith)).mpr hone).trans one_le_two
  have hproduct := error_of_isRounded (Double.isRounded_mul ht.finite hcos.finite) hsin.finite (by
    rw [abs_mul]
    exact (mul_le_one₀ htangent (abs_nonneg _) hcosine).trans one_le_two)
  have hsmall : unit (-50) ≤ 1 / 100 := by
    rw [Double.unit_eq]
    norm_num
  refine (length_le hsmall htangent (root_near ht) hone (htwo ▸ (le_abs_self _).trans hroot.le)
    hquotient hcosine hproduct).trans ?_
  rw [Double.unit_eq, Double.unit_eq]
  norm_num

end Rounded

/-! ### Turning two numbers -/

/-- A sum of two products whose first factors are at most one, rounded at every step. -/
theorem near_of_products {c s x y p q u e : ℝ} (he : 0 ≤ e) (hsmall : e ≤ 1 / 100) (hc : |c| ≤ 1)
    (hs : |s| ≤ 1) (hp : |p - c * x| ≤ e * (|c * x| + 1)) (hq : |q - s * y| ≤ e * (|s * y| + 1))
    (hu : |u - (p + q)| ≤ e * (|p + q| + 1)) :
    |u - (c * x + s * y)| ≤ 5 * e * (|x| + |y| + 1) ∧ |c * x + s * y| ≤ |x| + |y| + 1 := by
  have hx : |c * x| ≤ |x| := by
    rw [abs_mul]
    exact mul_le_of_le_one_left (abs_nonneg x) hc
  have hy : |s * y| ≤ |y| := by
    rw [abs_mul]
    exact mul_le_of_le_one_left (abs_nonneg y) hs
  have hsum : |c * x + s * y| ≤ |x| + |y| := (abs_add_le _ _).trans (add_le_add hx hy)
  have hp' : |p - c * x| ≤ e * (|x| + 1) := hp.trans (mul_le_mul_of_nonneg_left (by linarith) he)
  have hq' : |q - s * y| ≤ e * (|y| + 1) := hq.trans (mul_le_mul_of_nonneg_left (by linarith) he)
  have hproducts : |p + q - (c * x + s * y)| ≤ e * (|x| + |y| + 2) := by
    calc |p + q - (c * x + s * y)| = |(p - c * x) + (q - s * y)| := by congr 1; ring
      _ ≤ |p - c * x| + |q - s * y| := abs_add_le _ _
      _ ≤ e * (|x| + |y| + 2) := by linarith
  have hgreat : |p + q| ≤ 2 * (|x| + |y|) + 1 := by
    have hless : e * (|x| + |y| + 2) ≤ 1 / 100 * (|x| + |y| + 2) :=
      mul_le_mul_of_nonneg_right hsmall (by positivity)
    have hdistance := abs_sub_abs_le_abs_sub (p + q) (c * x + s * y)
    linarith [abs_nonneg x, abs_nonneg y]
  have hlast : |u - (p + q)| ≤ e * (2 * (|x| + |y|) + 2) :=
    hu.trans (mul_le_mul_of_nonneg_left (by linarith) he)
  refine ⟨?_, by linarith⟩
  calc |u - (c * x + s * y)| = |(u - (p + q)) + (p + q - (c * x + s * y))| := by congr 1; ring
    _ ≤ |u - (p + q)| + |p + q - (c * x + s * y)| := abs_add_le _ _
    _ ≤ e * (3 * (|x| + |y|) + 4) := by linarith
    _ ≤ 5 * e * (|x| + |y| + 1) := by nlinarith [abs_nonneg x, abs_nonneg y]

/-- Two sums that are near to those of a rotation have squares that are near as well. -/
theorem sum_squares_le {c s x y u v e : ℝ} (he : 0 ≤ e) (hsmall : e ≤ 1 / 100)
    (hu : |u - (c * x + -s * y)| ≤ 5 * e * (|x| + |y| + 1) ∧ |c * x + -s * y| ≤ |x| + |y| + 1)
    (hv : |v - (s * x + c * y)| ≤ 5 * e * (|x| + |y| + 1) ∧ |s * x + c * y| ≤ |x| + |y| + 1) :
    u ^ 2 + v ^ 2 ≤ (c ^ 2 + s ^ 2) * (x ^ 2 + y ^ 2) + 90 * e * (x ^ 2 + y ^ 2 + 1) := by
  have hu := (sq_le_of_near hu.1 hu.2).1
  have hv := (sq_le_of_near hv.1 hv.2).1
  have hpos : 0 < |x| + |y| + 1 := by positivity
  have hless : 5 * e * (|x| + |y| + 1) ≤ |x| + |y| + 1 := mul_le_of_le_one_left hpos.le (by linarith)
  have hexcess : 5 * e * (|x| + |y| + 1) * (2 * (|x| + |y| + 1) + 5 * e * (|x| + |y| + 1)) ≤
      15 * e * (|x| + |y| + 1) ^ 2 := by
    calc _ ≤ 5 * e * (|x| + |y| + 1) * (3 * (|x| + |y| + 1)) :=
          mul_le_mul_of_nonneg_left (by linarith) (by positivity)
      _ = 15 * e * (|x| + |y| + 1) ^ 2 := by ring
  have hmean : (|x| + |y| + 1) ^ 2 ≤ 3 * (x ^ 2 + y ^ 2 + 1) := by
    rw [← sq_abs x, ← sq_abs y]
    nlinarith [sq_nonneg (|x| - |y|), sq_nonneg (|x| - 1), sq_nonneg (|y| - 1)]
  have hscaled : 30 * e * (|x| + |y| + 1) ^ 2 ≤ 30 * e * (3 * (x ^ 2 + y ^ 2 + 1)) :=
    mul_le_mul_of_nonneg_left hmean (by positivity)
  have hrotation : (c * x + -s * y) ^ 2 + (s * x + c * y) ^ 2 = (c ^ 2 + s ^ 2) * (x ^ 2 + y ^ 2) := by
    ring
  linarith

/-- How far a result is from what was rounded, whatever its size. -/
theorem error_le_of_isRounded {v : ℝ} {x : Float} (h : IsRounded v x) (hx : x.isFinite = true) :
    |value x - v| ≤ unit (-53) * (|v| + 1) := by
  have hleast : unit (-1075) ≤ unit (-53) := Double.unit_le_iff.mpr (by norm_num)
  rw [mul_add, mul_one]
  exact (h.error_le hx).trans (by linarith)

/-- **Turning two doubles adds little to the sum of their squares.** -/
theorem IsTurn.turn {cos sin x y : Float} (h : IsTurn cos sin) (hx : Within 500 x)
    (hy : Within 500 y) :
    (cos * x - sin * y).isFinite = true ∧ (sin * x + cos * y).isFinite = true ∧
      (value (cos * x - sin * y) : ℝ) ^ 2 + (value (sin * x + cos * y) : ℝ) ^ 2 ≤
        (value x : ℝ) ^ 2 + (value y : ℝ) ^ 2 +
          unit (-10) * ((value x : ℝ) ^ 2 + (value y : ℝ) ^ 2 + 1) := by
  have hcx := h.within_cos.mul hx (by norm_num) (by norm_num)
  have hcy := h.within_cos.mul hy (by norm_num) (by norm_num)
  have hsx := h.within_sin.mul hx (by norm_num) (by norm_num)
  have hsy := h.within_sin.mul hy (by norm_num) (by norm_num)
  have hu := hcx.sub hsy (by norm_num) (by norm_num)
  have hv := hsx.add hcy (by norm_num) (by norm_num)
  have hcos := Double.unit_zero ▸ h.within_cos.le
  have hsin := Double.unit_zero ▸ h.within_sin.le
  have he := (Double.unit_pos (-53)).le
  have hsmall : unit (-53) ≤ 1 / 100 := by
    rw [Double.unit_eq]
    norm_num
  have product {a b : Float} (ha : a.isFinite = true) (hb : b.isFinite = true)
      (hab : (a * b).isFinite = true) :
      |(value (a * b) : ℝ) - value a * value b| ≤ unit (-53) * (|(value a : ℝ) * value b| + 1) :=
    error_le_of_isRounded (Double.isRounded_mul ha hb) hab
  have hcx' := product h.within_cos.finite hx.finite hcx.finite
  have hcy' := product h.within_cos.finite hy.finite hcy.finite
  have hsx' := product h.within_sin.finite hx.finite hsx.finite
  have hsy' := product h.within_sin.finite hy.finite hsy.finite
  have hfirst := error_le_of_isRounded (Double.isRounded_sub hcx.finite hsy.finite) hu.finite
  have hsecond := error_le_of_isRounded (Double.isRounded_add hsx.finite hcy.finite) hv.finite
  refine ⟨hu.finite, hv.finite, ?_⟩
  have hnear := sum_squares_le he hsmall
    (near_of_products (q := -(value (sin * y) : ℝ)) he hsmall hcos ((abs_neg _).trans_le hsin) hcx'
      (by rw [neg_mul, abs_neg, neg_sub_neg, abs_sub_comm]; exact hsy') hfirst)
    (near_of_products he hsmall hsin hcos hsx' hcy' hsecond)
  have hunits : unit (-11) + 90 * unit (-53) ≤ unit (-10) := by
    rw [Double.unit_eq, Double.unit_eq, Double.unit_eq]
    norm_num
  have hnonneg : (0 : ℝ) ≤ (value x : ℝ) ^ 2 + (value y : ℝ) ^ 2 := by positivity
  have hlength := mul_le_mul_of_nonneg_right h.length hnonneg
  have hunit := Double.unit_pos (-11)
  nlinarith

end TrafficWatch
