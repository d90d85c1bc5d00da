import TrafficWatch.Json.Reader
import TrafficWatch.Proofs.Decimal.Text

/-!
# Json — Number

Numbers in JSON texts.  A proper spelling is read as a numeral of the same value, up to its end
(`readNumeral_text`).  A finite double is written with a point or an exponent, so it is read as a
double and not as a whole number (`readNumber_render`); a natural number of a machine word stays
whole (`readNumeral_natural`).
-/

namespace TrafficWatch.Json

open Decimal (Spelling NoDigit natural digitsValue splitSign)

/-- A number that stands before the text ends there. -/
def EndsNumber (rest : List Char) : Prop :=
  ∀ c, rest.head? = some c → c.isDigit = false ∧ c ≠ '.' ∧ c ≠ 'e' ∧ c ≠ 'E'

theorem EndsNumber.noDigit {rest : List Char} (h : EndsNumber rest) : NoDigit rest :=
  fun c hc => (h c hc).1

theorem readExponent_cons (rest : List Char) :
    readExponent ('e' :: rest) =
      match (splitSign rest).2.takeWhile Char.isDigit, (splitSign rest).2 with
      | [], [] => .error .truncated
      | [], _ => .error .malformed
      | _, _ =>
        .ok (some (if (splitSign rest).1 then
            -(digitsValue ((splitSign rest).2.takeWhile Char.isDigit) : Int)
          else digitsValue ((splitSign rest).2.takeWhile Char.isDigit)),
          (splitSign rest).2.dropWhile Char.isDigit) :=
  rfl

/-- An exponent is read as it is written. -/
theorem readExponent_exponentText (plusSign : Bool) (e : Int) {rest : List Char}
    (hr : NoDigit rest) :
    readExponent ('e' :: (Spelling.exponentText plusSign e ++ rest)) = .ok (some e, rest) := by
  have htake := Decimal.takeWhile_digits (Decimal.isDigit_natural e.natAbs) hr
  have hdrop := Decimal.dropWhile_digits (Decimal.isDigit_natural e.natAbs) hr
  rw [readExponent_cons, Spelling.splitSign_exponentText]
  simp only [htake, hdrop, Decimal.digitsValue_natural, Spelling.signed_natAbs]
  split
  · exact absurd ‹_› (Decimal.natural_ne_nil _)
  · exact absurd ‹_› (Decimal.natural_ne_nil _)
  · rfl

theorem readExponent_of_ends {rest : List Char} (hr : EndsNumber rest) :
    readExponent rest = .ok (none, rest) := by
  cases rest with
  | nil => rfl
  | cons c rest =>
      obtain ⟨-, -, he, hE⟩ := hr c rfl
      unfold readExponent
      exact if_pos ⟨he, hE⟩

theorem readExponent_ending (s : Spelling) {rest : List Char} (hr : EndsNumber rest) :
    readExponent (s.ending ++ rest) = .ok (s.exponent, rest) := by
  unfold Spelling.ending
  cases s.exponent with
  | none => exact readExponent_of_ends hr
  | some e => exact readExponent_exponentText _ e hr.noDigit

theorem noDigit_append {front rest : List Char} (hf : NoDigit front) (hr : NoDigit rest) :
    NoDigit (front ++ rest) := by
  cases front with
  | nil => exact hr
  | cons c front => exact fun d hd => hf d hd

theorem readFraction_of_ne {rest : List Char} (h : ∀ c, rest.head? = some c → c ≠ '.') :
    readFraction rest = .ok (none, rest) := by
  unfold readFraction
  split
  · exact absurd rfl (h '.' rfl)
  · rfl

theorem readFraction_tail {s : Spelling} (hs : s.IsProper) {rest : List Char}
    (hr : EndsNumber rest) :
    readFraction (s.tail ++ rest) = .ok (s.fraction, s.ending ++ rest) := by
  cases hf : s.fraction with
  | none =>
      have htail : s.tail = s.ending := by rw [Spelling.tail, hf]; rfl
      rw [htail]
      -- what stands next is an exponent, or it does not go on with a number
      refine readFraction_of_ne fun c hc => ?_
      unfold Spelling.ending at hc
      cases he : s.exponent with
      | none =>
          rw [he] at hc
          exact (hr c hc).2.1
      | some e =>
          rw [he] at hc
          cases hc
          decide
  | some f =>
      obtain ⟨hne, hdigits⟩ := hs.fraction f hf
      have htail : s.tail ++ rest = '.' :: (f ++ (s.ending ++ rest)) := by
        rw [Spelling.tail, hf, ← List.append_assoc]
        rfl
      have hno := noDigit_append s.noDigit_ending hr.noDigit
      rw [htail]
      unfold readFraction
      simp only [Decimal.takeWhile_digits hdigits hno, Decimal.dropWhile_digits hdigits hno]
      cases f with
      | nil => exact absurd rfl hne
      | cons c f => rfl

/-- **A proper spelling is read as a numeral** of the same value. -/
theorem readNumeral_text {s : Spelling} (hs : s.IsProper) (negative : Bool) {rest : List Char}
    (hr : EndsNumber rest) :
    readNumeral negative (s.text ++ rest) =
      .ok (⟨negative, digitsValue s.digits, s.place, s.fraction.isNone && s.exponent.isNone⟩,
        rest) := by
  have hno := noDigit_append s.noDigit_tail hr.noDigit
  unfold readNumeral Spelling.text
  rw [List.append_assoc, Decimal.takeWhile_digits hs.whole hno,
    Decimal.dropWhile_digits hs.whole hno]
  simp only
  split
  · exact absurd ‹_› hs.nonempty
  · rename_i hzero
    rcases hs.leading with h | h
    · rw [h] at hzero
      simp at hzero
    · exact absurd (by rw [hzero]; rfl) h
  · rw [readFraction_tail hs hr]
    change (readExponent (s.ending ++ rest) >>= _) = _
    rw [readExponent_ending s hr]
    rfl

/-- The spelling of a natural number. -/
theorem isProper_natural (n : Nat) : (Spelling.mk (natural n) none none false).IsProper where
  nonempty := Decimal.natural_ne_nil n
  whole := Decimal.isDigit_natural n
  leading := by
    have h := Decimal.Layout.leading_natural_zeros (n := n) (k := 0) (.inr rfl)
    rwa [List.replicate_zero, List.append_nil] at h
  fraction := fun _ h => by cases h

theorem text_natural (n : Nat) : (Spelling.mk (natural n) none none false).text = natural n :=
  List.append_nil _

/-- A natural number is read as it is, and is whole. -/
theorem readNumeral_natural (negative : Bool) (n : Nat) {rest : List Char} (hr : EndsNumber rest) :
    readNumeral negative (natural n ++ rest) = .ok (⟨negative, n, 0, true⟩, rest) := by
  have h := readNumeral_text (isProper_natural n) negative hr
  simp only [text_natural, Spelling.digits, Option.getD_none, List.append_nil,
    Decimal.digitsValue_natural, Spelling.place] at h
  exact h

/-! ### Values -/

/-- A double, as a numeral with a point or an exponent. -/
def Numeral.IsDouble (n : Numeral) (x : Float) : Prop :=
  n.isWhole = false ∧ Decimal.nearest n.negative n.significand n.exponent = x

theorem Numeral.IsDouble.number? {n : Numeral} {x : Float} (h : n.IsDouble x)
    (hx : x.isFinite = true) : n.number? = some (.real x) := by
  unfold Numeral.number?
  simp only [h.1, h.2, hx, Bool.false_and, Bool.false_eq_true, if_false, if_true]

/-- **A finite double is read back** from its JSON text. -/
theorem readNumber_render {x : Float} (hx : x.isFinite = true) :
    ∃ (s : Spelling) (n : Numeral), s.IsProper ∧ n.IsDouble x ∧
      numberLayout.render x = (if Decimal.isNegative x then '-' :: s.text else s.text) ∧
        ∀ rest, EndsNumber rest →
          readNumber (Decimal.isNegative x) (s.text ++ rest) = (.number n, some rest) := by
  obtain ⟨s, hs, htext, hreads, hpoint, -⟩ := numberLayout.exists_spelling hx
  have hwhole : (s.fraction.isNone && s.exponent.isNone) = false := by
    cases he : s.exponent with
    | none =>
        rw [Option.isNone_eq_false_iff.mpr (Option.isSome_iff_ne_none.mpr (hpoint he rfl)),
          Bool.false_and]
    | some e => rw [Option.isNone_some, Bool.and_false]
  refine ⟨s, ⟨Decimal.isNegative x, digitsValue s.digits, s.place,
    s.fraction.isNone && s.exponent.isNone⟩, hs, ⟨hwhole, ?_⟩, htext, fun rest hr => ?_⟩
  · exact Decimal.nearest_of_readsAs hx hreads
  · rw [readNumber, readNumeral_text hs _ hr]

end TrafficWatch.Json
