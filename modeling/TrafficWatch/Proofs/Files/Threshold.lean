import TrafficWatch.Files.ModelStore
import TrafficWatch.Proofs.Decimal.Text
import TrafficWatch.Proofs.Decimal.Unblank
import TrafficWatch.Proofs.Sequence

/-!
# Files — Threshold

The text of a threshold names its kind and reads back as the threshold, if that is finite; otherwise
it is refused (`readThreshold_eq_ok`).  A text is read as a threshold exactly if it is a finite number,
or a kind and a finite number, with any blanks around and between them (`readThreshold_iff`).
-/

namespace TrafficWatch

open Decimal (Spelling Layout)

/-! ### Numbers have no blanks -/

namespace Decimal

/-- What is not finite is written as a word, which is read as something that is not finite. -/
theorem render_of_not_isFinite {x : Float} (hx : x.isFinite = false) :
    Text.Unblank (Layout.plain.render x) ∧ Layout.plain.render x ≠ [] ∧
      ∃ y, parseFloat? (Layout.plain.render x) = some y ∧ y.isFinite = false := by
  have hbits : x.toBits.toNat / 2 ^ 52 % 2 ^ 11 = 2047 := by
    by_contra h
    rw [(Double.isFinite_iff x).mpr h] at hx
    cases hx
  have hmagnitude : magnitude x = .infinite ∨ magnitude x = .notANumber := by
    unfold magnitude Magnitude.ofBits twoTo
    simp only [Nat.pow_eq]
    rw [if_pos hbits]
    split
    · exact .inl rfl
    · exact .inr rfl
  -- so there are three words, and each can be looked at
  have hrender : Layout.plain.render x ∈ ["inf".toList, "-inf".toList, "NaN".toList] := by
    unfold Layout.render
    rcases hmagnitude with h | h
    · rw [h]
      cases isNegative x <;> decide
    · rw [h]
      exact List.mem_cons_of_mem _ (List.mem_cons_of_mem _ List.mem_cons_self)
  generalize Layout.plain.render x = text at hrender
  simp only [List.mem_cons, List.not_mem_nil, or_false] at hrender
  rcases hrender with rfl | rfl | rfl
  · exact ⟨by decide, by decide, _, rfl, by decide⟩
  · exact ⟨by decide, by decide, _, rfl, by decide⟩
  · exact ⟨by decide, by decide, _, rfl, by decide⟩

theorem unblank_render (x : Float) :
    Text.Unblank (Layout.plain.render x) ∧ Layout.plain.render x ≠ [] := by
  cases hx : x.isFinite
  · obtain ⟨hblank, hne, -⟩ := render_of_not_isFinite hx
    exact ⟨hblank, hne⟩
  · exact Layout.plain.unblank_render_of_isFinite hx

/-- What is no number has no finite value. -/
theorem isFinite_ofSignAndBits_infinite (negative : Bool) :
    (ofSignAndBits negative (2047 * twoTo 52)).isFinite = false := by
  cases negative <;> decide

theorem isFinite_ofSignAndBits_notANumber (negative : Bool) :
    (ofSignAndBits negative (2047 * twoTo 52 + twoTo 51)).isFinite = false := by
  cases negative <;> decide

theorem unblank_of_digits {s : List Char} (h : s.all Char.isDigit = true) : Text.Unblank s :=
  fun c hc => Text.isBlank_of_isDigit (List.all_eq_true.mp h c hc)

theorem unblank_of_splitSign {text : List Char} (h : Text.Unblank (splitSign text).2) :
    Text.Unblank text := by
  unfold splitSign at h
  split at h
  · exact List.forall_mem_cons.mpr ⟨by decide, h⟩
  · exact List.forall_mem_cons.mpr ⟨by decide, h⟩
  · exact h

theorem unblank_of_exponent? {text : List Char} {e : Int} (h : exponent? text = some e) :
    Text.Unblank text := by
  cases text with
  | nil => exact fun c hc => absurd hc List.not_mem_nil
  | cons mark rest =>
      change (if mark ≠ 'e' ∧ mark ≠ 'E' then none
        else if (splitSign rest).2.isEmpty || !(splitSign rest).2.all Char.isDigit then none
        else some (if (splitSign rest).1 then -(digitsValue (splitSign rest).2 : Int)
          else digitsValue (splitSign rest).2)) = some e at h
      split at h
      · cases h
      split at h
      · cases h
      rename_i hmark hdigits
      have hblank : Text.isBlank mark = false := by
        rcases Decidable.em (mark = 'e') with rfl | hne
        · decide
        · obtain rfl : mark = 'E' := by_contra fun h => hmark ⟨hne, h⟩
          decide
      have hall : (splitSign rest).2.all Char.isDigit = true := by
        by_contra h
        exact hdigits (by simp [h])
      exact List.forall_mem_cons.mpr ⟨hblank, unblank_of_splitSign (unblank_of_digits hall)⟩

theorem unblank_takeWhile_isDigit (s : List Char) : Text.Unblank (s.takeWhile Char.isDigit) :=
  unblank_of_digits List.all_takeWhile

theorem unblank_of_unsignedFloat? {negative : Bool} {text : List Char} {x : Float}
    (h : unsignedFloat? negative text = some x) : Text.Unblank text ∧ text ≠ [] := by
  have hne : text ≠ [] := by
    rintro rfl
    cases h
  refine ⟨?_, hne⟩
  have hwhole := List.takeWhile_append_dropWhile (p := Char.isDigit) (l := text)
  unfold unsignedFloat? at h
  generalize text.dropWhile Char.isDigit = rest at h hwhole
  -- what is left after the digits is a fraction with an exponent, or an exponent
  have hrest : Text.Unblank rest := by
    simp only at h
    split at h
    · rename_i after
      split at h
      · cases h
      obtain ⟨e, hexponent, -⟩ := Option.map_eq_some_iff.mp h
      have hfraction := List.takeWhile_append_dropWhile (p := Char.isDigit) (l := after)
      refine List.forall_mem_cons.mpr ⟨by decide, ?_⟩
      rw [← hfraction]
      exact List.forall_mem_append.mpr
        ⟨unblank_takeWhile_isDigit after, unblank_of_exponent? hexponent⟩
    · split at h
      · cases h
      obtain ⟨e, hexponent, -⟩ := Option.map_eq_some_iff.mp h
      exact unblank_of_exponent? hexponent
  rw [← hwhole]
  exact List.forall_mem_append.mpr ⟨unblank_takeWhile_isDigit text, hrest⟩

/-- The text of a finite number has no blanks. -/
theorem unblank_of_parseFloat? {text : List Char} {x : Float} (h : parseFloat? text = some x)
    (hx : x.isFinite = true) : Text.Unblank text ∧ text ≠ [] := by
  rw [parseFloat?_eq] at h
  simp only at h
  split at h
  · rw [← Option.some.inj h, isFinite_ofSignAndBits_infinite] at hx
    cases hx
  split at h
  · rw [← Option.some.inj h, isFinite_ofSignAndBits_notANumber] at hx
    cases hx
  · obtain ⟨hunblank, hne⟩ := unblank_of_unsignedFloat? h
    refine ⟨unblank_of_splitSign hunblank, ?_⟩
    rintro rfl
    exact hne rfl

end Decimal

/-! ### Thresholds -/

theorem ScoreKind.unblank_word (kind : ScoreKind) : Text.Unblank kind.word.toList := by
  cases kind <;> decide

theorem ScoreKind.ofWord?_word (kind : ScoreKind) : ofWord? kind.word.toList = some kind := by
  cases kind <;> decide

theorem toList_thresholdText (kind : ScoreKind) (x : Float) :
    (thresholdText kind x).toList =
      kind.word.toList ++ ' ' :: Layout.plain.render x ++ ['\n'] := by
  simp [thresholdText, thresholdLayout, Layout.text]

/-- **The text of a threshold** names its kind, and the number in it is what is left to read. -/
theorem readThreshold_thresholdText (kind : ScoreKind) (x : Float) :
    ∃ text, readThreshold (thresholdText kind x).toList =
      (readNumber text (Layout.plain.render x)).map (some kind, ·) := by
  obtain ⟨hblank, hne⟩ := Decimal.unblank_render x
  have hword : kind.word.toList ≠ [] := by cases kind <;> decide
  have htrim : Text.trim (thresholdText kind x).toList =
      kind.word.toList ++ ' ' :: Layout.plain.render x := by
    rw [Text.trim, toList_thresholdText, List.append_assoc,
      Text.trimStart_unblank kind.unblank_word hword, ← List.append_assoc]
    have hend : Text.trimEnd (kind.word.toList ++ [' '] ++ Layout.plain.render x ++ ['\n']) = _ :=
      Text.trimEnd_append hblank hne (by simp [Text.isBlank])
    simpa using hend
  refine ⟨Text.trim (thresholdText kind x).toList, ?_⟩
  unfold readThreshold
  have hspace : Text.isBlank ' ' = true := rfl
  simp only [htrim, Text.splitBlank_append kind.unblank_word hspace,
    kind.ofWord?_word, Text.trim_unblank hblank]

/-- A finite threshold reads back, and one that is not finite is refused. -/
theorem readThreshold_eq_ok {kind : ScoreKind} {x : Float} {r : Option ScoreKind × Float} :
    readThreshold (thresholdText kind x).toList = .ok r ↔
      x.isFinite = true ∧ r = (some kind, x) := by
  obtain ⟨text, hread⟩ := readThreshold_thresholdText kind x
  rw [hread, readNumber]
  cases hx : x.isFinite with
  | true =>
      rw [Decimal.parseFloat?_render _ hx]
      simp only [hx, if_true, true_and]
      exact ⟨fun h => by cases h; rfl, fun h => by cases h; rfl⟩
  | false =>
      obtain ⟨-, -, y, hy, hinfinite⟩ := Decimal.render_of_not_isFinite hx
      rw [hy]
      simp only [hinfinite, Bool.false_eq_true, if_false, false_and, iff_false]
      exact fun h => by cases h

/-! ### Texts that give a threshold -/

/-- A text is a finite number. -/
def IsNumber (text : List Char) (x : Float) : Prop :=
  Decimal.parseFloat? text = some x ∧ x.isFinite = true

/-- **How a text gives a threshold**, with any blanks around it: as a number alone, or as the word for
its kind, blanks and the number. -/
inductive GivesThreshold : List Char → Option ScoreKind → Float → Prop where
  | alone {lead number trail : List Char} {x : Float} (hlead : Text.Blank lead)
      (htrail : Text.Blank trail) (hnumber : IsNumber number x) :
      GivesThreshold (lead ++ number ++ trail) none x
  | named (kind : ScoreKind) {lead gap number trail : List Char} {x : Float}
      (hlead : Text.Blank lead) (hgap : Text.Blank gap) (hne : gap ≠ []) (htrail : Text.Blank trail)
      (hnumber : IsNumber number x) :
      GivesThreshold (lead ++ (kind.word.toList ++ gap ++ number) ++ trail) (some kind) x

theorem readNumber_eq_ok {text number : List Char} {x : Float} :
    readNumber text number = .ok x ↔ IsNumber number x := by
  unfold readNumber IsNumber
  cases Decimal.parseFloat? number with
  | none => simp
  | some y =>
      simp only [ite_eq_ok, Option.some.injEq]
      constructor
      · rintro ⟨hfinite, rfl⟩
        exact ⟨rfl, hfinite⟩
      · rintro ⟨rfl, hfinite⟩
        exact ⟨hfinite, rfl⟩

theorem ScoreKind.eq_word_of_ofWord? {word : List Char} {kind : ScoreKind}
    (h : ofWord? word = some kind) : word = kind.word.toList := by
  have hword := List.find?_some h
  exact (beq_iff_eq.mp hword).symm

/-- What is read gives a threshold. -/
theorem givesThreshold_of_read {text : List Char} {kind? : Option ScoreKind} {x : Float}
    (h : readThreshold text = .ok (kind?, x)) : GivesThreshold text kind? x := by
  obtain ⟨lead, trail, hlead, htrail, htext⟩ := Text.exists_trim text
  unfold readThreshold at h
  simp only at h
  split at h
  · obtain ⟨y, hnumber, hy⟩ := map_eq_ok h
    cases hy
    rw [htext]
    exact .alone hlead htrail (readNumber_eq_ok.mp hnumber)
  · rename_i word rest hsplit
    obtain ⟨-, blank, hblank, hwhole⟩ := Text.splitBlank_eq_some hsplit
    split at h
    · cases h
    rename_i kind hkind
    obtain ⟨y, hnumber, hy⟩ := map_eq_ok h
    cases hy
    obtain ⟨lead', trail', hlead', htrail', hrest⟩ := Text.exists_trim rest
    have hgap : Text.Blank (blank :: lead') := List.forall_mem_cons.mpr ⟨hblank, hlead'⟩
    have hshape : text = lead ++ (kind.word.toList ++ (blank :: lead') ++ Text.trim rest) ++
        (trail' ++ trail) := by
      rw [htext, hwhole, ScoreKind.eq_word_of_ofWord? hkind]
      conv_lhs => rw [hrest]
      simp
    rw [hshape]
    exact .named kind hlead hgap (List.cons_ne_nil _ _) (htrail'.append htrail)
      (readNumber_eq_ok.mp hnumber)

/-- What gives a threshold is read. -/
theorem GivesThreshold.read {text : List Char} {kind? : Option ScoreKind} {x : Float}
    (h : GivesThreshold text kind? x) : readThreshold text = .ok (kind?, x) := by
  have hnil : Text.Blank [] := fun c hc => absurd hc List.not_mem_nil
  cases h with
  | @alone lead number trail _ hlead htrail hnumber =>
      obtain ⟨hunblank, hne⟩ := Decimal.unblank_of_parseFloat? hnumber.1 hnumber.2
      have htrim : Text.trim (lead ++ ([] ++ number) ++ trail) = [] ++ number :=
        Text.trim_around hlead htrail (Text.trimStart_unblank hunblank hne trail) hunblank hne
      simp only [List.nil_append] at htrim
      unfold readThreshold
      simp only [htrim, Text.splitBlank_unblank hunblank, readNumber_eq_ok.mpr hnumber]
      rfl
  | @named kind lead gap number trail _ hlead hgap hgapne htrail hnumber =>
      obtain ⟨hunblank, hne⟩ := Decimal.unblank_of_parseFloat? hnumber.1 hnumber.2
      have hword : kind.word.toList ≠ [] := by cases kind <;> decide
      have htrim : Text.trim (lead ++ (kind.word.toList ++ gap ++ number) ++ trail) =
          kind.word.toList ++ gap ++ number := by
        refine Text.trim_around hlead htrail ?_ hunblank hne
        have h := Text.trimStart_unblank kind.unblank_word hword (gap ++ number ++ trail)
        simpa using h
      -- the first blank of the gap ends the word, and the others are cut off the number
      obtain ⟨blank, rest, rfl⟩ := List.exists_cons_of_ne_nil hgapne
      obtain ⟨hblank, hrest⟩ := List.forall_mem_cons.mp hgap
      have hsplit : Text.splitBlank (kind.word.toList ++ blank :: rest ++ number) =
          some (kind.word.toList, rest ++ number) := by
        have h : Text.splitBlank (kind.word.toList ++ blank :: (rest ++ number)) = _ :=
          Text.splitBlank_append kind.unblank_word hblank
        simpa using h
      have hnumber' : Text.trim (rest ++ ([] ++ number) ++ []) = [] ++ number :=
        Text.trim_around hrest hnil (Text.trimStart_unblank hunblank hne []) hunblank hne
      simp only [List.nil_append, List.append_nil] at hnumber'
      unfold readThreshold
      simp only [htrim, hsplit, kind.ofWord?_word, hnumber', readNumber_eq_ok.mpr hnumber]
      rfl

/-- **A text is read as a threshold** exactly if it gives one. -/
theorem readThreshold_iff {text : List Char} {kind? : Option ScoreKind} {x : Float} :
    readThreshold text = .ok (kind?, x) ↔ GivesThreshold text kind? x :=
  ⟨givesThreshold_of_read, GivesThreshold.read⟩

end TrafficWatch
