import TrafficWatch.Decimal.Layout
import TrafficWatch.Proofs.Decimal.Nearest

/-!
# Decimal — Layout

How numbers are spelled, whatever the layout.  A `Spelling` has digits, perhaps a point with more
digits, and perhaps an exponent; every layout lays the digits of a number out as the text of a
proper spelling with the same value (`exists_positional`, `exists_scientific`).  So the text of a
finite double, its sign apart, is a proper spelling of a number that rounds to that double
(`exists_spelling`), and to read it is to get the double back (`nearest_of_readsAs`).
-/

namespace TrafficWatch.Decimal

/-! ### Digits -/

theorem natural_of_lt {n : Nat} (h : n < 10) : natural n = [Nat.digitChar n] := by
  rw [natural, if_pos h]

theorem natural_of_le {n : Nat} (h : 10 ≤ n) :
    natural n = natural (n / 10) ++ [Nat.digitChar (n % 10)] := by
  rw [natural, if_neg (by omega)]

theorem digitChar_spec : ∀ n < 10, (Nat.digitChar n).isDigit = true ∧
    (Nat.digitChar n).toNat - '0'.toNat = n ∧ (n ≠ 0 → Nat.digitChar n ≠ '0') := by
  decide

theorem digitsValue_snoc (digits : List Char) (c : Char) :
    digitsValue (digits ++ [c]) = 10 * digitsValue digits + (c.toNat - '0'.toNat) := by
  rw [digitsValue, List.foldl_append]
  rfl

theorem digitsValue_append (a b : List Char) :
    digitsValue (a ++ b) = digitsValue a * 10 ^ b.length + digitsValue b := by
  induction b using List.reverseRecOn with
  | nil => simp [digitsValue]
  | append_singleton b c ih =>
      rw [← List.append_assoc, digitsValue_snoc, digitsValue_snoc, ih, List.length_append,
        List.length_singleton, pow_succ]
      ring

theorem digitsValue_zeros (n : Nat) : digitsValue (List.replicate n '0') = 0 := by
  induction n with
  | zero => rfl
  | succ n ih => rw [List.replicate_succ', digitsValue_snoc, ih]; rfl

/-- The digits of a number say which one it is. -/
theorem digitsValue_natural (n : Nat) : digitsValue (natural n) = n := by
  induction n using Nat.strongRecOn with
  | ind n ih =>
      rcases Nat.lt_or_ge n 10 with h | h
      · rw [natural_of_lt h]
        exact (Nat.zero_add _).trans (digitChar_spec n h).2.1
      · rw [natural_of_le h, digitsValue_snoc, ih _ (by omega),
          (digitChar_spec _ (Nat.mod_lt n (by decide))).2.1]
        omega

theorem isDigit_natural (n : Nat) : ∀ c ∈ natural n, c.isDigit = true := by
  induction n using Nat.strongRecOn with
  | ind n ih =>
      intro c hc
      rcases Nat.lt_or_ge n 10 with h | h
      · rw [natural_of_lt h, List.mem_singleton] at hc
        rw [hc]
        exact (digitChar_spec n h).1
      · rw [natural_of_le h, List.mem_append, List.mem_singleton] at hc
        rcases hc with hc | rfl
        · exact ih _ (by omega) c hc
        · exact (digitChar_spec _ (Nat.mod_lt n (by decide))).1

theorem natural_ne_nil (n : Nat) : natural n ≠ [] := by
  unfold natural
  split <;> simp

/-- No zero stands before other digits. -/
theorem head?_natural {n : Nat} (h : n ≠ 0) : (natural n).head? ≠ some '0' := by
  induction n using Nat.strongRecOn with
  | ind n ih =>
      rcases Nat.lt_or_ge n 10 with hlt | hge
      · rw [natural_of_lt hlt]
        exact fun hzero => (digitChar_spec n hlt).2.2 h (Option.some.inj hzero)
      · rw [natural_of_le hge, List.head?_append_of_ne_nil _ (natural_ne_nil _)]
        exact ih _ (by omega) (by omega)

/-! ### Spellings -/

/-- A number as it is written, its sign apart. -/
structure Spelling where
  whole : List Char
  /-- The digits after the point, if there is one. -/
  fraction : Option (List Char)
  exponent : Option Int
  /-- A positive exponent has a plus sign. -/
  plusSign : Bool

namespace Spelling

/-- The text of an exponent. -/
def exponentText (plusSign : Bool) (e : Int) : List Char :=
  if e < 0 then '-' :: natural (-e).toNat
  else if plusSign then '+' :: natural e.toNat
  else natural e.toNat

/-- The text after the digits before the point. -/
def tail (s : Spelling) : List Char :=
  (match s.fraction with
    | some digits => '.' :: digits
    | none => []) ++
  match s.exponent with
  | some e => 'e' :: exponentText s.plusSign e
  | none => []

/-- The text of a spelling. -/
def text (s : Spelling) : List Char :=
  s.whole ++ s.tail

/-- All digits, before and after the point. -/
def digits (s : Spelling) : List Char :=
  s.whole ++ s.fraction.getD []

/-- The exponent of ten of the last digit. -/
def place (s : Spelling) : Int :=
  s.exponent.getD 0 - (s.fraction.getD []).length

/-- The number that is spelled. -/
def value (s : Spelling) : ℚ :=
  digitsValue s.digits * 10 ^ s.place

/-- The value of a spelling, by the number that its digits say. -/
theorem value_eq {s : Spelling} {n j : Nat} {e : Int} (hdigits : digitsValue s.digits = n * 10 ^ j)
    (hplace : s.place = e - j) : s.value = n * 10 ^ e := by
  rw [value, hdigits, hplace, Nat.cast_mul, Nat.cast_pow, Nat.cast_ofNat, mul_assoc, ← zpow_natCast,
    ← zpow_add₀ (by norm_num)]
  congr 2
  omega

/-- A number is spelled as everyone reads it. -/
structure IsProper (s : Spelling) : Prop where
  nonempty : s.whole ≠ []
  whole : ∀ c ∈ s.whole, c.isDigit = true
  /-- No zero stands before other digits. -/
  leading : s.whole = ['0'] ∨ s.whole.head? ≠ some '0'
  fraction : ∀ digits, s.fraction = some digits → digits ≠ [] ∧ ∀ c ∈ digits, c.isDigit = true

end Spelling

/-! ### Layouts -/

theorem isDigit_zeros (n : Nat) : ∀ c ∈ List.replicate n '0', c.isDigit = true := fun c hc => by
  rw [List.eq_of_mem_replicate hc]
  decide

namespace Layout

theorem digitsValue_natural_zeros (n k : Nat) :
    digitsValue (natural n ++ List.replicate k '0') = n * 10 ^ k := by
  rw [digitsValue_append, digitsValue_zeros, digitsValue_natural, List.length_replicate,
    Nat.add_zero]

theorem leading_natural_zeros {n k : Nat} (h : n ≠ 0 ∨ k = 0) :
    natural n ++ List.replicate k '0' = ['0'] ∨
      (natural n ++ List.replicate k '0').head? ≠ some '0' := by
  by_cases hn : n = 0
  · rw [h.resolve_left (not_not_intro hn), hn, natural_of_lt (by decide)]
    exact .inl rfl
  · rw [List.head?_append_of_ne_nil _ (natural_ne_nil n)]
    exact .inr (head?_natural hn)

theorem isDigit_natural_zeros (n k : Nat) :
    ∀ c ∈ natural n ++ List.replicate k '0', c.isDigit = true := fun c hc => by
  rcases List.mem_append.mp hc with hc | hc
  · exact isDigit_natural n c hc
  · exact isDigit_zeros k c hc

/-- A whole number is spelled with or without a zero after the point. -/
theorem exists_whole (l : Layout) {n k : Nat} (h : n ≠ 0 ∨ k = 0) :
    ∃ s : Spelling, s.IsProper ∧
      natural n ++ List.replicate k '0' ++ (if l.keepsPoint then ['.', '0'] else []) = s.text ∧
        s.value = n * 10 ^ (k : Int) ∧ s.exponent = none ∧
          (l.keepsPoint = true → s.fraction ≠ none) := by
  have hvalue := digitsValue_natural_zeros n k
  have hne : natural n ++ List.replicate k '0' ≠ [] := by simp [natural_ne_nil]
  cases l.keepsPoint
  · refine ⟨⟨natural n ++ List.replicate k '0', none, none, false⟩,
      ⟨hne, isDigit_natural_zeros n k, leading_natural_zeros h, fun _ h => by cases h⟩,
      ?_, ?_, rfl, ?_⟩
    · simp [Spelling.text, Spelling.tail]
    · exact Spelling.value_eq (j := k) (by simpa [Spelling.digits] using hvalue)
        (by simp [Spelling.place])
    · exact fun h => by cases h
  · refine ⟨⟨natural n ++ List.replicate k '0', some ['0'], none, false⟩,
      ⟨hne, isDigit_natural_zeros n k, leading_natural_zeros h, fun _ h => ?_⟩, ?_, ?_, rfl, ?_⟩
    · cases h
      exact ⟨by simp, by simp⟩
    · simp [Spelling.text, Spelling.tail]
    · refine Spelling.value_eq (j := k + 1) ?_ (by simp [Spelling.place])
      change digitsValue (natural n ++ List.replicate k '0' ++ ['0']) = _
      rw [digitsValue_snoc, hvalue, pow_succ]
      change 10 * (n * 10 ^ k) + 0 = _
      ring
    · exact fun _ h => by cases h

/-- A number below one is spelled with zeros after the point. -/
theorem exists_small {n places : Nat} (h : (natural n).length ≤ places) :
    ∃ s : Spelling, s.IsProper ∧
      '0' :: '.' :: List.replicate (places - (natural n).length) '0' ++ natural n = s.text ∧
        s.value = n * 10 ^ (-places : Int) ∧ s.exponent = none ∧ s.fraction ≠ none := by
  refine ⟨
    ⟨['0'], some (List.replicate (places - (natural n).length) '0' ++ natural n), none, false⟩,
    ⟨by simp, by simp, .inl rfl, fun _ h => ?_⟩, ?_, ?_, rfl, by simp⟩
  · cases h
    refine ⟨by simp [natural_ne_nil], fun c hc => ?_⟩
    rcases List.mem_append.mp hc with hc | hc
    · exact isDigit_zeros _ c hc
    · exact isDigit_natural n c hc
  · simp [Spelling.text, Spelling.tail]
  · refine Spelling.value_eq (j := 0) ?_ ?_
    · change digitsValue (['0'] ++ (List.replicate _ '0' ++ natural n)) = _
      rw [digitsValue_append, digitsValue_append, digitsValue_zeros, digitsValue_natural]
      change 0 * _ + (0 * _ + n) = _
      ring
    · simp only [Spelling.place, Option.getD_some, Option.getD_none, List.length_append,
        List.length_replicate]
      omega

/-- Other numbers are spelled with the point between the digits. -/
theorem exists_around {n places : Nat} (hn : n ≠ 0) (hpos : 0 < places)
    (h : places < (natural n).length) :
    ∃ s : Spelling, s.IsProper ∧
      (natural n).take ((natural n).length - places) ++
        '.' :: (natural n).drop ((natural n).length - places) = s.text ∧
        s.value = n * 10 ^ (-places : Int) ∧ s.exponent = none ∧ s.fraction ≠ none := by
  refine ⟨⟨(natural n).take ((natural n).length - places),
    some ((natural n).drop ((natural n).length - places)), none, false⟩,
    ⟨?_, ?_, .inr ?_, fun _ h => ?_⟩, ?_, ?_, rfl, by simp⟩
  · exact List.ne_nil_of_length_pos (by simp only [List.length_take]; omega)
  · exact fun c hc => isDigit_natural n c (List.mem_of_mem_take hc)
  · rw [List.head?_take, if_neg (by omega)]
    exact head?_natural hn
  · cases h
    exact ⟨List.ne_nil_of_length_pos (by simp only [List.length_drop]; omega),
      fun c hc => isDigit_natural n c (List.mem_of_mem_drop hc)⟩
  · simp [Spelling.text, Spelling.tail]
  · refine Spelling.value_eq (j := 0) ?_ ?_
    · change digitsValue (_ ++ _) = _
      rw [Option.getD_some, List.take_append_drop, digitsValue_natural]
      ring
    · simp only [Spelling.place, Option.getD_some, Option.getD_none, List.length_drop]
      omega

/-- Digits around a point are a spelling of their number. -/
theorem exists_positional (l : Layout) {d : Digits} (hd : d.significand ≠ 0 ∨ d.exponent = 0) :
    ∃ s : Spelling, s.IsProper ∧ l.positional d = s.text ∧ s.value = d.value ∧ s.exponent = none ∧
      (l.keepsPoint = true → s.fraction ≠ none) := by
  obtain ⟨n, e⟩ := d
  simp only at hd
  unfold positional Digits.value
  simp only
  split
  · rename_i he
    obtain ⟨k, rfl⟩ := Int.eq_ofNat_of_zero_le he
    exact l.exists_whole (hd.imp_right (by simp))
  · rename_i he
    obtain ⟨places, hplaces⟩ : ∃ places : Nat, e = -places := ⟨(-e).toNat, by omega⟩
    subst hplaces
    rw [Int.neg_neg, Int.toNat_natCast]
    split
    · rename_i hlen
      obtain ⟨s, hs, htext, hvalue, he, hf⟩ := exists_small hlen
      exact ⟨s, hs, htext, hvalue, he, fun _ => hf⟩
    · rename_i hlen
      obtain ⟨s, hs, htext, hvalue, he, hf⟩ :=
        exists_around (hd.resolve_right (by omega)) (by omega) (Nat.lt_of_not_le hlen)
      exact ⟨s, hs, htext, hvalue, he, fun _ => hf⟩

/-- One digit, the others after a point, and the exponent are a spelling of the number. -/
theorem exists_scientific (l : Layout) (d : Digits) :
    ∃ s : Spelling, s.IsProper ∧
      l.scientific d (d.exponent + (natural d.significand).length - 1) = s.text ∧
        s.value = d.value ∧ s.exponent ≠ none := by
  have hne := natural_ne_nil d.significand
  have hdigit := isDigit_natural d.significand
  have hvalue := digitsValue_natural d.significand
  have hleading (c : Char) : [c] = ['0'] ∨ [c].head? ≠ some '0' := by
    by_cases hc : c = '0'
    · exact .inl (congrArg (fun c => [c]) hc)
    · exact .inr fun h => hc (Option.some.inj h)
  unfold scientific
  cases hdigits : natural d.significand with
  | nil => exact absurd hdigits hne
  | cons first rest =>
      rw [hdigits] at hdigit hvalue
      cases rest with
      | nil =>
          -- after a single digit there is no point
          refine ⟨⟨[first], none, some (d.exponent + ([first].length : Nat) - 1), l.plusSign⟩,
            ⟨by simp, hdigit, hleading first, fun _ h => by cases h⟩, ?_, ?_, by simp⟩
          · simp [Spelling.text, Spelling.tail, Spelling.exponentText]
          · exact Spelling.value_eq (j := 0) (by simpa [Spelling.digits] using hvalue)
              (by simp [Spelling.place])
      | cons second rest =>
          refine ⟨⟨[first], some (second :: rest),
            some (d.exponent + ((first :: second :: rest).length : Nat) - 1), l.plusSign⟩,
            ⟨by simp, fun c hc => hdigit c (List.mem_cons.mpr (.inl (List.mem_singleton.mp hc))),
              hleading first, fun _ h => ?_⟩, ?_, ?_, by simp⟩
          · cases h
            exact ⟨by simp, fun c hc => hdigit c (List.mem_cons_of_mem _ hc)⟩
          · simp [Spelling.text, Spelling.tail, Spelling.exponentText]
          · refine Spelling.value_eq (j := 0) (by simpa [Spelling.digits] using hvalue) ?_
            simp only [Spelling.place, Option.getD_some, List.length_cons]
            omega

/-- Digits are laid out as a spelling of their number, around a point or with an exponent. -/
theorem exists_laidOut (l : Layout) {d : Digits} (hd : d.significand ≠ 0 ∨ d.exponent = 0) {e : Int}
    (he : e = d.exponent + (natural d.significand).length - 1) :
    ∃ s : Spelling, s.IsProper ∧
      (if l.isPositional e then l.positional d else l.scientific d e) = s.text ∧ s.value = d.value ∧
        (s.exponent = none → l.keepsPoint = true → s.fraction ≠ none) ∧
          (l.least = none → l.greatest = none → s.exponent = none) := by
  split
  · obtain ⟨s, hs, htext, hvalue, hnone, hpoint⟩ := l.exists_positional hd
    exact ⟨s, hs, htext, hvalue, fun _ => hpoint, fun _ _ => hnone⟩
  · rename_i hpositional
    obtain ⟨s, hs, htext, hvalue, hsome⟩ := l.exists_scientific d
    refine ⟨s, hs, he ▸ htext, hvalue, fun h => absurd h hsome, fun hleast hgreatest => ?_⟩
    rw [isPositional, hleast, hgreatest] at hpositional
    exact absurd rfl hpositional

end Layout

/-! ### Doubles -/

/-- A number that, as a decimal, is read as a double, the signs apart. -/
def ReadsAs (v : ℚ) (x : Float) : Prop :=
  magnitude x = .zero ∧ v = 0 ∨ ∃ b : Binary, magnitude x = .finite b ∧ b.Rounds v

theorem significand_shortest_ne_zero (tie : Tie) {x : Binary} (hx : x.IsDouble) :
    (shortest tie x).significand ≠ 0 := fun hzero => by
  have hle := (rounds_shortest tie hx).le.1
  rw [Digits.value, hzero, Nat.cast_zero, zero_mul] at hle
  exact absurd ((Binary.pow_le_lower hx).trans hle) (not_le.mpr (by positivity))

/-- **The text of a finite double**, its sign apart, spells a number that is read as that double. -/
theorem Layout.exists_spelling (l : Layout) {x : Float} (hx : x.isFinite = true) :
    ∃ s : Spelling, s.IsProper ∧
      l.render x = (if isNegative x then '-' :: s.text else s.text) ∧ ReadsAs s.value x ∧
        (s.exponent = none → l.keepsPoint = true → s.fraction ≠ none) ∧
          (l.least = none → l.greatest = none → s.exponent = none) := by
  rcases Double.magnitude_of_isFinite hx with ⟨hzero, -⟩ | ⟨b, hb, hdouble, -⟩
  · have hone : natural 0 = ['0'] := natural_of_lt (by decide)
    obtain ⟨s, hs, htext, hvalue, hpoint, hexponent⟩ :=
      l.exists_laidOut (d := ⟨0, 0⟩) (.inr rfl) (e := 0) (by simp [hone])
    refine ⟨s, hs, ?_, .inl ⟨hzero, ?_⟩, hpoint, hexponent⟩
    · rw [← htext, render, hzero]
      rfl
    · rw [hvalue, Digits.value, Nat.cast_zero, zero_mul]
  · obtain ⟨s, hs, htext, hvalue, hpoint, hexponent⟩ :=
      l.exists_laidOut (.inl (significand_shortest_ne_zero l.tie hdouble)) rfl
    refine ⟨s, hs, ?_, .inr ⟨b, hb, ?_⟩, hpoint, hexponent⟩
    · rw [← htext, render, hb]
      rfl
    · rw [hvalue]
      exact rounds_shortest l.tie hdouble

/-- **To read a number that is read as a double** gives that double. -/
theorem nearest_of_readsAs {n : Nat} {e : Int} {x : Float} (hx : x.isFinite = true)
    (h : ReadsAs (n * 10 ^ e) x) : nearest (isNegative x) n e = x := by
  have hbits : decimalBits n e = Double.lowBits x := by
    rcases Double.magnitude_of_isFinite hx with ⟨hzero, hlow⟩ | ⟨b, hb, hdouble, hlow⟩
    · rcases h with ⟨-, h⟩ | ⟨b, hb, -⟩
      · have hn : n = 0 := by
          have := (mul_eq_zero.mp h).resolve_right (by positivity)
          exact_mod_cast this
        rw [hlow, hn, decimalBits]
        rfl
      · rw [hzero] at hb
        cases hb
    · rcases h with ⟨hzero, -⟩ | ⟨b', hb', h⟩
      · rw [hzero] at hb
        cases hb
      · rw [hb] at hb'
        cases hb'
        rw [decimalBits_of_rounds hdouble h, hlow]
  rw [nearest, hbits, Double.ofSignAndBits_lowBits]

end TrafficWatch.Decimal
