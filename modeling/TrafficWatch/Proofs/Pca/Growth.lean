import TrafficWatch.Proofs.Pca.Angle
import TrafficWatch.Proofs.Pca.Rotation

/-!
# Pca — Growth

How great the entries of a matrix of doubles become when it is diagonalised.  Every turn of two entries
lets the sum of all squares grow by a little (`IsTame.turn`), so that a hundred sweeps, which turn so
many thousand pairs, keep it within bounds (`Diagonalization.isTame_run`), and no entry of the
diagonal form or of the basis is infinite or no number (`within_diagonalize`).
-/

namespace TrafficWatch

open Double (Within unit value)
open Float.Model (UnpackedFloat)

/-- The sum of what differs at two places only. -/
theorem sum_eq_of_pair {ι : Type*} [Fintype ι] {f g : ι → ℝ} {a b : ι} (hab : a ≠ b)
    (h : ∀ c, c ≠ a → c ≠ b → g c = f c) : ∑ c, g c = ∑ c, f c + (g a + g b - (f a + f b)) := by
  have hdifference : ∑ c, (g c - f c) = (g a - f a) + (g b - f b) :=
    Fintype.sum_eq_add a b hab fun c hc => by rw [h c hc.1 hc.2, sub_self]
  rw [Finset.sum_sub_distrib] at hdifference
  linarith

/-- What a step makes greater by a factor at most, many steps make greater by its power. -/
theorem foldl_growth {δ α : Type*} {P : ℝ → δ → Prop} {step : δ → α → δ} {r bound : ℝ} (hr : 1 ≤ r)
    {l : List α} (hstep : ∀ a ∈ l, ∀ g d, r * g ≤ bound → P g d → P (r * g) (step d a)) {g : ℝ}
    {d : δ} (hg : 0 ≤ g) (hbound : r ^ l.length * g ≤ bound) (h : P g d) :
    P (r ^ l.length * g) (l.foldl step d) := by
  induction l generalizing g d with
  | nil => simpa using h
  | cons a l ih =>
      have hpower : r ^ (a :: l).length * g = r ^ l.length * (r * g) := by
        rw [List.length_cons, pow_succ, mul_assoc]
      have hnonneg : 0 ≤ r * g := mul_nonneg (by linarith) hg
      have hgreater : r * g ≤ r ^ l.length * (r * g) := le_mul_of_one_le_left hnonneg (one_le_pow₀ hr)
      rw [hpower] at hbound ⊢
      exact ih (fun a ha => hstep a (List.mem_cons_of_mem _ ha)) hnonneg hbound
        (hstep a List.mem_cons_self g d (hgreater.trans hbound) h)

/-! ### Matrices -/

/-- The factor by which one turn lets the sum of the squares grow. -/
noncomputable def growth : ℝ :=
  1 + unit (-10)

theorem one_le_growth : 1 ≤ growth :=
  le_add_of_nonneg_right (Double.unit_pos _).le

/-- **A matrix of finite doubles**, the squares of which and one add up to at most a bound. -/
structure IsTame {n : ℕ} (bound : ℝ) (m : Square Float n) : Prop where
  finite : ∀ i j, (m.entry i j).isFinite = true
  sum_le : ∑ c : Fin n × Fin n, (value (m.entry c.1 c.2) : ℝ) ^ 2 + 1 ≤ bound

namespace IsTame

variable {n : ℕ} {g : ℝ} {m : Square Float n}

theorem mono (h : IsTame g m) {g' : ℝ} (hg : g ≤ g') : IsTame g' m :=
  ⟨h.finite, h.sum_le.trans hg⟩

theorem nonneg (h : IsTame g m) : 0 ≤ g := by
  have hsum : 0 ≤ ∑ c : Fin n × Fin n, (value (m.entry c.1 c.2) : ℝ) ^ 2 :=
    Finset.sum_nonneg fun c _ => sq_nonneg _
  linarith [h.sum_le]

/-- Each entry is part of the sum. -/
theorem within (h : IsTame g m) {k : ℤ} (hg : g ≤ unit (k + k)) (i j : Fin n) :
    Within k (m.entry i j) := by
  refine ⟨h.finite i j, ?_⟩
  have hle := Finset.single_le_sum (f := fun c : Fin n × Fin n => (value (m.entry c.1 c.2) : ℝ) ^ 2)
    (fun c _ => sq_nonneg _) (Finset.mem_univ (i, j))
  have hsum := h.sum_le
  refine abs_le_of_sq_le_sq ?_ (Double.unit_pos k).le
  rw [sq (unit k), ← Double.unit_add]
  linarith

variable {cos sin : Float}

/-- **Turning two entries** lets the sum grow by a little. -/
theorem turn (hturn : IsTurn cos sin) {a b : Fin n × Fin n} (hab : a ≠ b) (hg : g ≤ unit 1000)
    (h : IsTame g m) : IsTame (growth * g) (m.turn a b cos sin) := by
  have hentry (c : Fin n × Fin n) : (m.turn a b cos sin).entry c.1 c.2 =
      if c = b then sin * m.entry a.1 a.2 + cos * m.entry b.1 b.2
      else if c = a then cos * m.entry a.1 a.2 - sin * m.entry b.1 b.2
      else m.entry c.1 c.2 := Square.entry_turn m a b c
  obtain ⟨hfirst, hsecond, hsum⟩ := hturn.turn (h.within hg a.1 a.2) (h.within hg b.1 b.2)
  refine ⟨fun i j => ?_, ?_⟩
  · rw [hentry (i, j)]
    split_ifs
    · exact hsecond
    · exact hfirst
    · exact h.finite i j
  · have hpair := sum_eq_of_pair hab (f := fun c => (value (m.entry c.1 c.2) : ℝ) ^ 2)
      (g := fun c => (value ((m.turn a b cos sin).entry c.1 c.2) : ℝ) ^ 2)
      fun c hca hcb => by simp only [hentry c, if_neg hca, if_neg hcb]
    simp only [hentry a, hentry b, if_pos, if_neg hab] at hpair
    have hpart := Finset.add_le_sum (f := fun c : Fin n × Fin n => (value (m.entry c.1 c.2) : ℝ) ^ 2)
      (s := Finset.univ) (fun c _ => sq_nonneg _) (Finset.mem_univ a) (Finset.mem_univ b) hab
    have hle := h.sum_le
    have hscaled := mul_le_mul_of_nonneg_left
      ((add_le_add_left hpart 1).trans hle) (Double.unit_pos (-10)).le
    rw [hpair, growth, add_mul, one_mul]
    linarith

/-- Turning pairs of entries one after the other. -/
theorem foldl_turn (hturn : IsTurn cos sin) {first second : Fin n → Fin n × Fin n}
    (hne : ∀ k, first k ≠ second k) (hg : growth ^ n * g ≤ unit 1000) (h : IsTame g m) :
    IsTame (growth ^ n * g)
      ((List.finRange n).foldl (fun m k => m.turn (first k) (second k) cos sin) m) := by
  have hstep : ∀ k ∈ List.finRange n, ∀ g m, growth * g ≤ unit 1000 → IsTame g m →
      IsTame (growth * g) (Square.turn m (first k) (second k) cos sin) := fun k _ g m hg hm =>
    hm.turn hturn (hne k) ((le_mul_of_one_le_left hm.nonneg one_le_growth).trans hg)
  have hlength : (List.finRange n).length = n := List.length_finRange
  have hfold := foldl_growth one_le_growth hstep h.nonneg (by rwa [hlength]) h
  rwa [hlength] at hfold

theorem turnColumns (hturn : IsTurn cos sin) {p q : Fin n} (hpq : p ≠ q)
    (hg : growth ^ n * g ≤ unit 1000) (h : IsTame g m) :
    IsTame (growth ^ n * g) (m.turnColumns p q cos sin) :=
  h.foldl_turn hturn (fun _ hk => hpq (Prod.mk.inj hk).2) hg

theorem turnRows (hturn : IsTurn cos sin) {p q : Fin n} (hpq : p ≠ q)
    (hg : growth ^ n * g ≤ unit 1000) (h : IsTame g m) :
    IsTame (growth ^ n * g) (m.turnRows p q cos sin) :=
  h.foldl_turn hturn (fun _ hk => hpq (Prod.mk.inj hk).1) hg

end IsTame

/-! ### Rotations -/

theorem value_ne_zero_of_beq {x : Float} (hx : x.isFinite = true) (h : (x == 0.0) = false) :
    value x ≠ 0 := by
  intro hzero
  have hcompare : UnpackedFloat.beq (Double.parts x) (Double.parts 0.0) = true := by
    rw [UnpackedFloat.beq, Double.compare_parts hx rfl, hzero]
    rfl
  exact absurd (hcompare.symm.trans h) (by decide)

namespace Diagonalization

variable {n : ℕ} {g : ℝ} {d : Diagonalization Float n}

/-- Matrix and basis of a diagonalization are tame. -/
structure IsTame (bound : ℝ) (d : Diagonalization Float n) : Prop where
  matrix : TrafficWatch.IsTame bound d.matrix
  basis : TrafficWatch.IsTame bound d.basis

theorem IsTame.mono (h : d.IsTame g) {g' : ℝ} (hg : g ≤ g') : d.IsTame g' :=
  ⟨h.matrix.mono hg, h.basis.mono hg⟩

theorem le_growth_mul (hg : 0 ≤ g) (k : ℕ) : g ≤ growth ^ k * g :=
  le_mul_of_one_le_left hg (one_le_pow₀ one_le_growth)

/-- **A rotation** turns all pairs of two columns and of two rows. -/
theorem IsTame.rotate (h : d.IsTame g) {p q : Fin n} (hpq : p ≠ q)
    (hg : growth ^ (n + n) * g ≤ unit 1000) : (d.rotate p q).IsTame (growth ^ (n + n) * g) := by
  have hnonneg := h.matrix.nonneg
  have hself := le_growth_mul hnonneg (n + n)
  rw [Diagonalization.rotate]
  split_ifs with hzero
  · exact h.mono hself
  · have hentry (i j : Fin n) : Within 500 (d.matrix.entry i j) :=
      h.matrix.within (k := 500) (hself.trans hg) i j
    have hnonzero : value (d.matrix.entry p q) ≠ 0 :=
      value_ne_zero_of_beq (h.matrix.finite p q) (Bool.eq_false_iff.mpr hzero)
    have hturn := isTurn_of_tangent
      (within_tangent (hentry p p) (hentry q q) (hentry p q) hnonzero)
    have hhalf : growth ^ n * g ≤ growth ^ (n + n) * g :=
      mul_le_mul_of_nonneg_right (pow_le_pow_right₀ one_le_growth (by omega)) hnonneg
    have htwice : growth ^ (n + n) * g = growth ^ n * (growth ^ n * g) := by
      rw [pow_add, mul_assoc]
    have hcolumns := h.matrix.turnColumns hturn hpq (hhalf.trans hg)
    exact ⟨htwice ▸ hcolumns.turnRows hturn hpq (htwice ▸ hg),
      (h.basis.turnColumns hturn hpq (hhalf.trans hg)).mono hhalf⟩

theorem ne_of_mem_pairs {pq : Fin n × Fin n} (h : pq ∈ Square.pairs n) : pq.1 ≠ pq.2 := by
  obtain ⟨p, -, hp⟩ := List.mem_flatMap.mp h
  obtain ⟨q, hq, rfl⟩ := List.mem_map.mp hp
  exact (of_decide_eq_true (List.mem_filter.mp hq).2).ne

/-- The turns of a sweep together. -/
theorem growth_pow_le : (growth ^ (6 + 6)) ^ (Square.pairs 6).length ≤ unit 1 := by
  have hlength : (Square.pairs 6).length = 15 := by decide
  rw [hlength, growth, Double.unit_eq, Double.unit_eq]
  norm_num

/-- **A sweep** at most doubles the sum. -/
theorem IsTame.sweep {d : Diagonalization Float 6} (h : d.IsTame g) (hg : unit 1 * g ≤ unit 1000) :
    d.sweep.IsTame (unit 1 * g) := by
  have hnonneg := h.matrix.nonneg
  have hle := mul_le_mul_of_nonneg_right growth_pow_le hnonneg
  have hstep : ∀ pq ∈ Square.pairs 6, ∀ g (d : Diagonalization Float 6),
      growth ^ (6 + 6) * g ≤ unit 1000 → d.IsTame g →
        (d.rotate pq.1 pq.2).IsTame (growth ^ (6 + 6) * g) :=
    fun pq hpq g d hg hd => hd.rotate (ne_of_mem_pairs hpq) hg
  exact (foldl_growth (one_le_pow₀ one_le_growth) hstep hnonneg (hle.trans hg) h).mono hle

/-- **Sweeps** double the sum so many times at most. -/
theorem IsTame.run {isDone : Square Float 6 → Bool} {limit : ℕ} {d : Diagonalization Float 6} {k : ℤ}
    (h : d.IsTame (unit k)) (hk : k + limit ≤ 1000) :
    (d.run isDone limit).IsTame (unit (k + limit)) := by
  induction limit generalizing d k with
  | zero => simpa [Diagonalization.run] using h
  | succ limit ih =>
      push_cast at hk
      rw [Diagonalization.run]
      split_ifs
      · exact h.mono (Double.unit_le_iff.mpr (by omega))
      · have hdouble : unit 1 * unit k = unit (k + 1) := by rw [← Double.unit_add, add_comm]
        have hsweep := h.sweep (by rw [hdouble]; exact Double.unit_le_iff.mpr (by omega))
        rw [hdouble] at hsweep
        have hrun := ih hsweep (by omega)
        rwa [add_assoc, add_comm 1] at hrun

end Diagonalization

/-! ### The diagonal form -/

/-- A matrix of doubles within a bound is tame. -/
theorem isTame_of_within {m : Square Float 6} (h : ∀ i j, Within 194 (m.entry i j)) :
    IsTame (unit 395) m := by
  refine ⟨fun i j => (h i j).finite, ?_⟩
  have hsquare (c : Fin 6 × Fin 6) : (value (m.entry c.1 c.2) : ℝ) ^ 2 ≤ unit 388 := by
    rw [← sq_abs, sq]
    calc _ ≤ unit 194 * unit 194 :=
          mul_le_mul (h c.1 c.2).le (h c.1 c.2).le (abs_nonneg _) (Double.unit_pos _).le
      _ = unit 388 := by rw [← Double.unit_add]; norm_num
  have hsum := Finset.sum_le_card_nsmul Finset.univ _ _ fun c _ => hsquare c
  rw [Finset.card_univ, Fintype.card_prod, Fintype.card_fin, nsmul_eq_mul] at hsum
  have hunits : unit 395 = 128 * unit 388 := by
    have hseven : unit 395 = unit 7 * unit 388 := by rw [← Double.unit_add]; norm_num
    rw [hseven, Double.unit_ofNat]
    norm_num
  have hone : 1 ≤ unit 388 := Double.unit_zero ▸ Double.unit_le_iff.mpr (by norm_num)
  push_cast at hsum
  linarith

/-- **Diagonalising keeps everything finite.** -/
theorem within_diagonalize {m : Square Float 6} (h : ∀ i j, Within 194 (m.entry i j)) (i j : Fin 6) :
    Within 248 ((diagonalize m).matrix.entry i j) ∧ Within 248 ((diagonalize m).basis.entry i j) := by
  have hidentity (i j : Fin 6) : Within 194 ((Square.identity : Square Float 6).entry i j) := by
    have hentry : (Square.identity : Square Float 6).entry i j = if i = j then 1.0 else 0.0 :=
      Square.entry_ofFn _ i j
    rw [hentry]
    split_ifs
    · exact Double.within_one.mono (by norm_num)
    · exact Double.within_zero _
  have hstart : (Diagonalization.start m).IsTame (unit 395) :=
    ⟨isTame_of_within h, isTame_of_within hidentity⟩
  have hrun : (diagonalize m).IsTame (unit (395 + (100 : ℕ))) := hstart.run (by norm_num)
  have hbound : unit (395 + (100 : ℕ)) ≤ unit (248 + 248) := Double.unit_le_iff.mpr (by norm_num)
  exact ⟨hrun.matrix.within hbound i j, hrun.basis.within hbound i j⟩

end TrafficWatch
