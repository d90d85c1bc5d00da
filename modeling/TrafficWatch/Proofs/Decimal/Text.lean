import TrafficWatch.Proofs.Decimal.Layout

/-!
# Decimal — Text

Proper spellings are read as what they spell, in the free form of numbers (`unsignedFloat?_text`).
So the text of a finite double reads back as that double, whatever the layout
(`parseFloat?_render`).
-/

namespace TrafficWatch.Decimal

/-! ### Digits -/

/-- No digit stands at the start of a text. -/
def NoDigit (rest : List Char) : Prop :=
  ∀ c, rest.head? = some c → c.isDigit = false

theorem takeWhile_digits {digits rest : List Char} (hd : ∀ c ∈ digits, c.isDigit = true)
    (hr : NoDigit rest) : (digits ++ rest).takeWhile Char.isDigit = digits := by
  rw [List.takeWhile_append_of_pos hd]
  cases rest with
  | nil => simp
  | cons c rest => simp [hr c rfl]

theorem dropWhile_digits {digits rest : List Char} (hd : ∀ c ∈ digits, c.isDigit = true)
    (hr : NoDigit rest) : (digits ++ rest).dropWhile Char.isDigit = rest := by
  rw [List.dropWhile_append_of_pos hd]
  cases rest with
  | nil => simp
  | cons c rest => simp [hr c rfl]

/-! ### Signs -/

/-- A sign, if one stands at the start of a text, and the rest. -/
def splitSign : List Char → Bool × List Char
  | '-' :: rest => (true, rest)
  | '+' :: rest => (false, rest)
  | rest => (false, rest)

theorem splitSign_of_isDigit {c : Char} (hc : c.isDigit = true) (rest : List Char) :
    splitSign (c :: rest) = (false, c :: rest) := by
  unfold splitSign
  split
  · rename_i heq
    obtain ⟨rfl, -⟩ := List.cons.inj heq
    exact absurd hc (by decide)
  · rename_i heq
    obtain ⟨rfl, -⟩ := List.cons.inj heq
    exact absurd hc (by decide)
  · rfl

theorem splitSign_digits {digits : List Char} (hne : digits ≠ [])
    (hd : ∀ c ∈ digits, c.isDigit = true) (rest : List Char) :
    splitSign (digits ++ rest) = (false, digits ++ rest) := by
  cases digits with
  | nil => exact absurd rfl hne
  | cons c digits => exact splitSign_of_isDigit (hd c List.mem_cons_self) _

namespace Spelling

/-- The sign of an exponent, and its digits. -/
theorem splitSign_exponentText (plusSign : Bool) (e : Int) (rest : List Char) :
    splitSign (exponentText plusSign e ++ rest) = (decide (e < 0), natural e.natAbs ++ rest) := by
  have hdigits := splitSign_digits (natural_ne_nil e.natAbs) (isDigit_natural _) rest
  unfold exponentText
  by_cases he : e < 0
  · rw [if_pos he, decide_eq_true he, show (-e).toNat = e.natAbs by omega]
    rfl
  · rw [if_neg he, decide_eq_false he, show e.toNat = e.natAbs by omega]
    cases plusSign
    · exact hdigits
    · rfl

theorem signed_natAbs (e : Int) : (if decide (e < 0) then -(e.natAbs : Int) else e.natAbs) = e := by
  by_cases he : e < 0
  · simp only [he, decide_true, if_true]
    omega
  · simp only [he, decide_false, Bool.false_eq_true, if_false]
    omega

/-! ### Free form -/

theorem exponent?_cons (rest : List Char) :
    exponent? ('e' :: rest) =
      if (splitSign rest).2.isEmpty || !(splitSign rest).2.all Char.isDigit then none
      else some (if (splitSign rest).1 then -(digitsValue (splitSign rest).2 : Int)
        else digitsValue (splitSign rest).2) :=
  rfl

/-- An exponent is read as it is written. -/
theorem exponent?_exponentText (plusSign : Bool) (e : Int) :
    exponent? ('e' :: exponentText plusSign e) = some e := by
  have hsplit := splitSign_exponentText plusSign e []
  rw [List.append_nil, List.append_nil] at hsplit
  have hall : (natural e.natAbs).all Char.isDigit = true := List.all_eq_true.mpr (isDigit_natural _)
  have hempty : (natural e.natAbs).isEmpty = false := by simp [natural_ne_nil]
  rw [exponent?_cons, hsplit]
  simp only [hall, hempty, digitsValue_natural, Bool.not_true, Bool.or_self, Bool.false_eq_true,
    if_false, signed_natAbs]

/-- The text of the exponent, if there is one. -/
def ending (s : Spelling) : List Char :=
  match s.exponent with
  | some e => 'e' :: exponentText s.plusSign e
  | none => []

theorem exponent?_ending (s : Spelling) : exponent? s.ending = some (s.exponent.getD 0) := by
  unfold ending
  cases s.exponent with
  | none => rfl
  | some e => exact exponent?_exponentText _ e

theorem noDigit_ending (s : Spelling) : NoDigit s.ending := fun c hc => by
  unfold ending at hc
  split at hc <;> cases hc
  decide

theorem noDigit_tail (s : Spelling) : NoDigit s.tail := fun c hc => by
  unfold tail at hc
  split at hc
  · cases hc
    decide
  · exact s.noDigit_ending c hc

/-- **A proper spelling is read as what it spells.** -/
theorem IsProper.unsignedFloat?_text {s : Spelling} (hs : s.IsProper) (negative : Bool) :
    unsignedFloat? negative s.text = some (nearest negative (digitsValue s.digits) s.place) := by
  have hwhole := takeWhile_digits hs.whole s.noDigit_tail
  have htail := dropWhile_digits hs.whole s.noDigit_tail
  have hempty : s.whole.isEmpty = false := by simp [hs.nonempty]
  unfold unsignedFloat? text
  rw [hwhole, htail]
  cases hf : s.fraction with
  | none =>
      cases he : s.exponent with
      | none =>
          have htail : s.tail = [] := by rw [tail, hf, he]; rfl
          simp only [htail, hempty, Bool.false_and, Bool.false_eq_true, if_false]
          simp [exponent?, digits, place, hf, he]
      | some e =>
          have htail : s.tail = 'e' :: exponentText s.plusSign e := by rw [tail, hf, he]; rfl
          simp only [htail, hempty, Bool.false_and, Bool.false_eq_true, if_false]
          change (exponent? ('e' :: exponentText s.plusSign e)).map (fun e =>
            nearest negative (digitsValue (s.whole ++ [])) (e - ([] : List Char).length)) = _
          rw [exponent?_exponentText]
          simp [digits, place, hf, he]
  | some f =>
      have hfraction := (hs.fraction f hf).2
      have htail : s.tail = '.' :: (f ++ s.ending) := by rw [tail, hf]; rfl
      simp only [htail, takeWhile_digits hfraction s.noDigit_ending,
        dropWhile_digits hfraction s.noDigit_ending, hempty, Bool.false_and, Bool.false_eq_true,
        if_false, exponent?_ending, Option.map_some]
      simp [digits, place, hf]

end Spelling

theorem toLower_of_isDigit {c : Char} (hc : c.isDigit = true) : c.toLower = c := by
  refine dif_neg fun h => ?_
  have hdigit := (Char.isDigit_iff_toNat.mp hc).2
  have hletter : 'A'.toNat ≤ c.toNat := h.1
  exact absurd (hletter.trans hdigit) (by decide)

/-- A digit does not start a word for a number. -/
theorem ofList_ne_word {c : Char} (hc : c.isDigit = true) (rest : List Char)
    {word : String} {first : Char}
    {later : List Char} (hword : word.toList = first :: later) (hfirst : first.isDigit = false) :
    String.ofList ((c :: rest).map Char.toLower) ≠ word := by
  intro h
  rw [← h, String.toList_ofList, List.map_cons, toLower_of_isDigit hc] at hword
  rw [(List.cons.inj hword).1, hfirst] at hc
  cases hc

theorem parseFloat?_eq (text : List Char) :
    parseFloat? text =
      let word := String.ofList ((splitSign text).2.map Char.toLower)
      if word = "inf" || word = "infinity" then
        some (ofSignAndBits (splitSign text).1 (2047 * twoTo 52))
      else if word = "nan" then
        some (ofSignAndBits (splitSign text).1 (2047 * twoTo 52 + twoTo 51))
      else unsignedFloat? (splitSign text).1 (splitSign text).2 :=
  rfl

/-- What starts with a digit, after a sign if any, is no word. -/
theorem parseFloat?_of_isDigit {text rest : List Char} {negative : Bool} {c : Char}
    (hc : c.isDigit = true) (hsplit : splitSign text = (negative, c :: rest)) :
    parseFloat? text = unsignedFloat? negative (c :: rest) := by
  rw [parseFloat?_eq, hsplit]
  simp only
  rw [if_neg, if_neg]
  · exact ofList_ne_word hc rest (show "nan".toList = ['n', 'a', 'n'] from rfl) (by decide)
  · rw [Bool.or_eq_true, decide_eq_true_eq, decide_eq_true_eq, not_or]
    exact ⟨ofList_ne_word hc rest (show "inf".toList = ['i', 'n', 'f'] from rfl) (by decide),
      ofList_ne_word hc rest (show "infinity".toList = 'i' :: "nfinity".toList from rfl)
        (by decide)⟩

theorem Spelling.IsProper.exists_cons {s : Spelling} (hs : s.IsProper) :
    ∃ c rest, s.text = c :: rest ∧ c.isDigit = true := by
  cases hw : s.whole with
  | nil => exact absurd hw hs.nonempty
  | cons c rest =>
      exact ⟨c, rest ++ s.tail, by rw [text, hw, List.cons_append],
        hs.whole c (hw ▸ List.mem_cons_self)⟩

/-- **The text of a finite double reads back as that double**, whatever the layout. -/
theorem parseFloat?_render (l : Layout) {x : Float} (hx : x.isFinite = true) :
    parseFloat? (l.render x) = some x := by
  obtain ⟨s, hs, htext, hreads, -⟩ := l.exists_spelling hx
  obtain ⟨c, rest, hcons, hc⟩ := hs.exists_cons
  have hsplit : splitSign (l.render x) = (isNegative x, c :: rest) := by
    rw [htext, hcons]
    cases isNegative x
    · exact splitSign_of_isDigit hc rest
    · rfl
  rw [parseFloat?_of_isDigit hc hsplit, ← hcons, hs.unsignedFloat?_text,
    nearest_of_readsAs hx hreads]

end TrafficWatch.Decimal
