import TrafficWatch.Proofs.Json.Number

/-!
# Json — Reader

Texts that are read back.  `Reads text d` says that the reader of values makes the document `d` of a
text, whatever follows it, as long as that does not go on with a number.  There is one rule for each
kind of value; those for lists (`Reads.list`) and for objects (`Reads.object`) rest on one statement
about elements between commas (`IsSeries.read_separated`).

The fuel of the readers that call each other is bounded by the length of the text: three calls are
nested for each bracket, and two more for each comma.
-/

namespace TrafficWatch.Json

open Decimal (Spelling natural)

/-! ### Texts between quotes -/

theorem pushUnit_of_lt {d : TextDraft} (hd : d.surrogate = none) {unit : Nat} (h : unit < 32) :
    d.pushUnit unit = d.push (Char.ofNat unit) := by
  unfold TextDraft.pushUnit
  rw [hd]
  simp only
  rw [if_neg (by simp; omega), if_neg (by simp; omega)]

theorem readHex_hexDigits (foreign : Option Char) {n : Nat} (h : n < 32) (rest : List Char) :
    readHex foreign ('0' :: '0' :: hexDigit (n / 16) :: hexDigit n :: rest) = .ok (n, rest) := by
  have hvalue : ∀ k < 32, hexValue? '0' = some 0 ∧ (hexValue? (hexDigit (k / 16))).bind (fun a =>
      (hexValue? (hexDigit k)).map (a * 16 + ·)) = some k := by decide
  obtain ⟨hzero, hn⟩ := hvalue n h
  obtain ⟨a, ha, hn⟩ := Option.bind_eq_some_iff.mp hn
  obtain ⟨b, hb, hn⟩ := Option.map_eq_some_iff.mp hn
  simp only [readHex, hzero, ha, hb, Nat.zero_mul, Nat.zero_add, hn]

/-- What a character is escaped to is read as that character. -/
theorem readText_escapedChar {d : TextDraft} (hd : d.surrogate = none) (fuel : Nat) (c : Char)
    (rest : List Char) :
    readText none (fuel + 1) d (escapedChar c ++ rest) = readText none fuel (d.push c) rest := by
  -- some characters have an escape of their own, other control characters one by number
  by_cases h : c ∈ ['\"', '\\', '\n', '\r', '\t', '\x08', '\x0c']
  · simp only [List.mem_cons, List.not_mem_nil, or_false] at h
    rcases h with rfl | rfl | rfl | rfl | rfl | rfl | rfl <;> rfl
  simp only [List.mem_cons, List.not_mem_nil, or_false, not_or] at h
  obtain ⟨hquote, hslash, hn, hr, ht, hb, hf⟩ := h
  unfold escapedChar
  rw [if_neg hquote, if_neg hslash, if_neg hn, if_neg hr, if_neg ht, if_neg hb, if_neg hf]
  split
  · rename_i hcontrol
    simp only [List.cons_append, List.nil_append]
    rw [readText]
    simp only [readHex_hexDigits none hcontrol, pushUnit_of_lt hd hcontrol, Char.ofNat_toNat]
  · rename_i hcontrol
    rw [List.singleton_append, readText]
    · rw [if_neg hcontrol]
      simp
    · exact hquote
    · exact hslash

theorem length_escapedChar_pos (c : Char) : 0 < (escapedChar c).length := by
  unfold escapedChar
  repeat' split
  all_goals exact Nat.succ_pos _

theorem length_le_escaped (s : List Char) : s.length ≤ (s.flatMap escapedChar).length := by
  induction s with
  | nil => exact Nat.le_refl 0
  | cons c s ih =>
      have hc := length_escapedChar_pos c
      rw [List.flatMap_cons, List.length_append, List.length_cons]
      omega

/-- A draft without any fault. -/
def TextDraft.Sound (d : TextDraft) : Prop :=
  d.surrogate = none ∧ d.isDamaged = false ∧ d.isForeign = false

theorem TextDraft.Sound.push {d : TextDraft} (h : d.Sound) (c : Char) : (d.push c).Sound :=
  ⟨rfl, by simp [TextDraft.push, h.1, h.2.1], h.2.2⟩

theorem TextDraft.Sound.close {d : TextDraft} (h : d.Sound) :
    d.close = .text (.ok (String.ofList d.reversed.reverse)) none := by
  simp [TextDraft.close, h.1, h.2.1, h.2.2]

/-- An escaped text is read up to its closing quote. -/
theorem readText_escaped {s : List Char} {d : TextDraft} (hd : d.Sound) {fuel : Nat}
    (hfuel : s.length < fuel) (rest : List Char) :
    readText none fuel d (s.flatMap escapedChar ++ '\"' :: rest) =
      (.text (.ok (String.ofList (d.reversed.reverse ++ s))) none, some rest) := by
  induction s generalizing d fuel with
  | nil =>
      obtain ⟨fuel, rfl⟩ := Nat.exists_eq_succ_of_ne_zero (Nat.ne_of_gt hfuel)
      rw [List.flatMap_nil, List.nil_append, readText, hd.close, List.append_nil]
  | cons c s ih =>
      obtain ⟨fuel, rfl⟩ := Nat.exists_eq_succ_of_ne_zero (Nat.ne_zero_of_lt hfuel)
      rw [List.flatMap_cons, List.append_assoc, readText_escapedChar hd.1,
        ih (hd.push c) (Nat.lt_of_succ_lt_succ hfuel)]
      simp [TextDraft.push]

/-! ### Values -/

/-- A text that is read as a document, whatever follows it. -/
structure Reads (text : List Char) (d : Document) : Prop where
  starts : ∃ c rest, text = c :: rest ∧ isBlank c = false ∧ c ≠ ']' ∧ c ≠ '\x7d'
  read : ∀ fuel rest, 3 * text.length ≤ fuel → EndsNumber rest →
    readValue none fuel (text ++ rest) = (d, some rest)

/-- All characters are blanks. -/
def Blanks (s : List Char) : Prop :=
  ∀ c ∈ s, isBlank c = true

theorem Blanks.nil : Blanks [] :=
  fun _ h => by cases h

theorem Blanks.space : Blanks [' '] := fun c hc => by
  cases List.mem_singleton.mp hc
  rfl

theorem skipBlanks_append {blanks : List Char} (h : Blanks blanks) (s : List Char) :
    skipBlanks (blanks ++ s) = skipBlanks s :=
  List.dropWhile_append_of_pos h

theorem skipBlanks_cons {c : Char} (h : isBlank c = false) (s : List Char) :
    skipBlanks (c :: s) = c :: s :=
  List.dropWhile_cons_of_neg (by simp [h])

theorem readValue_blanks {blanks : List Char} (h : Blanks blanks) (fuel : Nat) (s : List Char) :
    readValue none fuel (blanks ++ s) = readValue none fuel s := by
  cases fuel with
  | zero => rw [readValue, readValue]
  | succ fuel => rw [readValue, readValue, skipBlanks_append h]

theorem Reads.null : Reads "null".toList .null where
  starts := ⟨_, _, rfl, by decide, by decide, by decide⟩
  read := by
    intro fuel rest hfuel _
    obtain ⟨fuel, rfl⟩ := Nat.exists_eq_add_of_le' hfuel
    rfl

theorem Reads.bool (b : Bool) : Reads (if b then "true" else "false").toList (.bool b) := by
  cases b
  · refine ⟨⟨_, _, rfl, by decide, by decide, by decide⟩, fun fuel rest hfuel _ => ?_⟩
    obtain ⟨fuel, rfl⟩ := Nat.exists_eq_add_of_le' hfuel
    rfl
  · refine ⟨⟨_, _, rfl, by decide, by decide, by decide⟩, fun fuel rest hfuel _ => ?_⟩
    obtain ⟨fuel, rfl⟩ := Nat.exists_eq_add_of_le' hfuel
    rfl

theorem Reads.quoted (s : String) : Reads (quoted s.toList) (.text (.ok s) none) where
  starts := ⟨_, _, rfl, by decide, by decide, by decide⟩
  read := by
    intro fuel rest hfuel _
    obtain ⟨fuel, rfl⟩ := Nat.exists_eq_add_of_le' hfuel
    have hlength : s.toList.length < (s.toList.flatMap escapedChar ++ '\"' :: rest).length := by
      have h := length_le_escaped s.toList
      rw [List.length_append, List.length_cons]
      omega
    have h := readText_escaped (d := .empty) ⟨rfl, rfl, rfl⟩ hlength rest
    have htext : Json.quoted s.toList ++ rest =
        '\"' :: (s.toList.flatMap escapedChar ++ '\"' :: rest) := by
      rw [Json.quoted, List.append_assoc]
      rfl
    rw [htext]
    change readText none _ .empty _ = _
    rw [h]
    simp [TextDraft.empty]

/-! ### Numbers -/

theorem isBlank_of_isDigit {c : Char} (h : c.isDigit = true) : isBlank c = false := by
  obtain ⟨hlow, -⟩ := Char.isDigit_iff_toNat.mp h
  have hne : ∀ b : Char, b.toNat < 48 → c ≠ b := by
    rintro b hb rfl
    exact absurd hlow (Nat.not_le_of_lt hb)
  simp only [isBlank, Bool.or_eq_false_iff, decide_eq_false_iff_not]
  exact ⟨⟨⟨hne _ (by decide), hne _ (by decide)⟩, hne _ (by decide)⟩, hne _ (by decide)⟩

theorem readValue_digit {c : Char} (h : c.isDigit = true) (fuel : Nat) (rest : List Char) :
    readValue none (fuel + 1) (c :: rest) = readNumber false (c :: rest) := by
  have hne : ∀ (b : Char) (s : List Char), b.isDigit = false → c :: rest ≠ b :: s := by
    rintro b s hb hcons
    rw [List.head_eq_of_cons_eq hcons, hb] at h
    cases h
  rw [readValue, skipBlanks_cons (isBlank_of_isDigit h)]
  split
  case h_9 hcons =>
    cases hcons
    exact if_pos h
  case h_1 hnil => cases hnil
  all_goals exact absurd ‹_› (hne _ _ (by decide))

theorem Spelling.starts {s : Spelling} (hs : s.IsProper) :
    ∃ c rest, s.text = c :: rest ∧ c.isDigit = true ∧ isBlank c = false ∧ c ≠ ']' ∧ c ≠ '\x7d' := by
  obtain ⟨c, rest, hcons, hc⟩ := hs.exists_cons
  refine ⟨c, rest, hcons, hc, isBlank_of_isDigit hc, ?_, ?_⟩
  · rintro rfl
    exact absurd hc (by decide)
  · rintro rfl
    exact absurd hc (by decide)

/-- A number is read as what its spelling is read as, after its sign if there is one. -/
theorem Reads.number {s : Spelling} (hs : s.IsProper) {negative : Bool} {n : Numeral}
    (h : ∀ rest, EndsNumber rest →
      readNumber negative (s.text ++ rest) = (.number n, some rest)) :
    Reads (if negative then '-' :: s.text else s.text) (.number n) := by
  obtain ⟨c, digits, hcons, hc, hstarts⟩ := Spelling.starts hs
  cases negative with
  | true =>
      refine ⟨⟨_, _, rfl, by decide, by decide, by decide⟩, fun fuel rest hfuel hrest => ?_⟩
      obtain ⟨fuel, rfl⟩ := Nat.exists_eq_add_of_le' hfuel
      exact h rest hrest
  | false =>
      refine ⟨⟨c, digits, hcons, hstarts⟩, fun fuel rest hfuel hrest => ?_⟩
      have hlength : 0 < s.text.length := by rw [hcons]; exact Nat.succ_pos _
      obtain ⟨fuel, rfl⟩ := Nat.exists_eq_add_of_le' (show 1 ≤ fuel by
        simp only [Bool.false_eq_true, if_false] at hfuel
        omega)
      have hread := h rest hrest
      rw [hcons, List.cons_append] at hread
      rw [if_neg Bool.false_ne_true, hcons, List.cons_append, readValue_digit hc, hread]

/-- A natural number, after its sign if there is one. -/
theorem Reads.whole (negative : Bool) (n : Nat) :
    Reads (if negative then '-' :: natural n else natural n) (.number ⟨negative, n, 0, true⟩) := by
  have h := @Reads.number _ (isProper_natural n) negative ⟨negative, n, 0, true⟩
  rw [text_natural] at h
  exact h fun rest hrest => by rw [readNumber, readNumeral_natural negative n hrest]

/-- A finite double is read as a numeral of its value. -/
theorem exists_reads_render {x : Float} (hx : x.isFinite = true) :
    ∃ n : Numeral, n.IsDouble x ∧ Reads (numberLayout.render x) (.number n) := by
  obtain ⟨s, n, hs, hn, htext, hread⟩ := readNumber_render hx
  exact ⟨n, hn, htext ▸ Reads.number hs hread⟩

/-! ### Elements between commas -/

theorem endsNumber_cons {c : Char} (h : c.isDigit = false ∧ c ≠ '.' ∧ c ≠ 'e' ∧ c ≠ 'E')
    {rest : List Char} : EndsNumber (c :: rest) := by
  intro d hd
  cases hd
  exact h

theorem endsNumber_blanks {blanks rest : List Char} (h : Blanks blanks) (hrest : EndsNumber rest) :
    EndsNumber (blanks ++ rest) := by
  cases blanks with
  | nil => exact hrest
  | cons c blanks =>
      have hc := h c List.mem_cons_self
      simp only [isBlank, Bool.or_eq_true, decide_eq_true_eq] at hc
      rcases hc with ((rfl | rfl) | rfl) | rfl
      all_goals exact endsNumber_cons (by decide)

/-- The readers of elements: `more` reads them up to a closing character, the first one or those
that follow a comma, and `one` reads an element and those after it. -/
structure IsSeries {α : Type} (closing : Char)
    (more : Nat → Bool → List Char → List α × Option Fault × Option (List Char))
    (one : Nat → List Char → List α × Option Fault × Option (List Char)) : Prop where
  skip : ∀ {fuel first blanks s}, Blanks blanks → more fuel first (blanks ++ s) = more fuel first s
  stop : ∀ {fuel first s}, more (fuel + 1) first (closing :: s) = ([], none, some s)
  start : ∀ {fuel c s}, isBlank c = false → c ≠ closing →
    more (fuel + 1) true (c :: s) = one fuel (c :: s)
  next : ∀ {fuel s}, more (fuel + 1) false (',' :: s) = one fuel s
  ends : ∀ {s}, EndsNumber (closing :: s)

theorem isSeries_items : IsSeries ']' (readItems none) (readItem none) where
  skip := by
    intro fuel first blanks s h
    cases fuel with
    | zero => rw [readItems, readItems]
    | succ fuel => rw [readItems, readItems, skipBlanks_append h]
  stop := by
    intro fuel first s
    rw [readItems, skipBlanks_cons (by decide)]
    rfl
  start := by
    intro fuel c s hblank hne
    rw [readItems, skipBlanks_cons hblank]
    split
    case h_1 hnil => cases hnil
    case h_2 hcons => exact absurd (List.head_eq_of_cons_eq hcons) hne
    case h_3 hcons =>
      cases hcons
      rfl
  next := by
    intro fuel s
    rw [readItems, skipBlanks_cons (by decide)]
    rfl
  ends := endsNumber_cons (by decide)

theorem isSeries_members : IsSeries '\x7d' (readMembers none) (readMember none) where
  skip := by
    intro fuel first blanks s h
    cases fuel with
    | zero => rw [readMembers, readMembers]
    | succ fuel => rw [readMembers, readMembers, skipBlanks_append h]
  stop := by
    intro fuel first s
    rw [readMembers, skipBlanks_cons (by decide)]
    rfl
  start := by
    intro fuel c s hblank hne
    rw [readMembers, skipBlanks_cons hblank]
    split
    case h_1 hnil => cases hnil
    case h_2 hcons => exact absurd (List.head_eq_of_cons_eq hcons) hne
    case h_3 hcons =>
      cases hcons
      rfl
  next := by
    intro fuel s
    rw [readMembers, skipBlanks_cons (by decide)]
    rfl
  ends := endsNumber_cons (by decide)

theorem separated_cons (separator first : List Char) (texts : List (List Char)) :
    separated separator (first :: texts) = first ++ texts.flatMap (separator ++ ·) := by
  induction texts generalizing first with
  | nil => rw [separated, List.flatMap_nil, List.append_nil]
  | cons text texts ih =>
      rw [separated, ih, List.flatMap_cons, List.append_assoc, List.append_assoc]
      exact List.cons_ne_nil _ _

section Series

variable {α : Type} {closing : Char}
  {more : Nat → Bool → List Char → List α × Option Fault × Option (List Char)}
  {one : Nat → List Char → List α × Option Fault × Option (List Char)}

/-- A text that is read as one element, whatever follows it. -/
structure ReadsOne (closing : Char)
    (more : Nat → Bool → List Char → List α × Option Fault × Option (List Char))
    (one : Nat → List Char → List α × Option Fault × Option (List Char))
    (text : List Char) (a : α) : Prop where
  starts : ∃ c rest, text = c :: rest ∧ isBlank c = false ∧ c ≠ closing
  read : ∀ fuel blanks rest, Blanks blanks → 3 * text.length ≤ fuel → EndsNumber rest →
    one (fuel + 1) (blanks ++ (text ++ rest)) =
      (a :: (more fuel false rest).1, (more fuel false rest).2)

theorem IsSeries.ends_following (h : IsSeries closing more one) (gap : List Char)
    {ending : List Char} (hending : Blanks ending) (rest : List Char) (texts : List (List Char)) :
    EndsNumber (texts.flatMap (',' :: gap ++ ·) ++ (ending ++ closing :: rest)) := by
  cases texts with
  | nil =>
      rw [List.flatMap_nil, List.nil_append]
      exact endsNumber_blanks hending h.ends
  | cons text texts => exact endsNumber_cons (by decide)

/-- The elements that follow a comma, up to the closing character. -/
theorem IsSeries.read_following (h : IsSeries closing more one) {gap ending : List Char}
    (hgap : Blanks gap) (hending : Blanks ending) (rest : List Char) {texts : List (List Char)}
    {as : List α} (hread : List.Forall₂ (ReadsOne closing more one) texts as) {fuel : Nat}
    (hfuel : 3 * (texts.flatMap (',' :: gap ++ ·)).length < fuel) :
    more fuel false (texts.flatMap (',' :: gap ++ ·) ++ (ending ++ closing :: rest)) =
      (as, none, some rest) := by
  induction hread generalizing fuel with
  | nil =>
      obtain ⟨fuel, rfl⟩ := Nat.exists_eq_succ_of_ne_zero (Nat.ne_of_gt hfuel)
      rw [List.flatMap_nil, List.nil_append, h.skip hending, h.stop]
  | @cons text a texts as hone _ ih =>
      simp only [List.flatMap_cons, List.cons_append, List.length_cons, List.length_append] at hfuel
      -- one call for the comma, and one for the element after it
      obtain ⟨fuel, rfl⟩ := Nat.exists_eq_add_of_le' (show 2 ≤ fuel by omega)
      have hrest := h.ends_following gap hending rest texts
      have hfollowing := ih (show _ < fuel by simp only [List.cons_append]; omega)
      have hread := hone.read fuel gap _ hgap (by omega) hrest
      rw [hfollowing] at hread
      simpa only [List.flatMap_cons, List.cons_append, List.append_assoc, h.next] using hread

/-- **Elements between commas** are read one by one, up to the closing character. -/
theorem IsSeries.read_separated (h : IsSeries closing more one) {opening gap ending : List Char}
    (hopening : Blanks opening) (hgap : Blanks gap) (hending : Blanks ending) (rest : List Char)
    {texts : List (List Char)} {as : List α}
    (hread : List.Forall₂ (ReadsOne closing more one) texts as) {fuel : Nat}
    (hfuel : 3 * (separated (',' :: gap) texts).length + 2 ≤ fuel) :
    more fuel true (opening ++ (separated (',' :: gap) texts ++ (ending ++ closing :: rest))) =
      (as, none, some rest) := by
  obtain ⟨fuel, rfl⟩ := Nat.exists_eq_add_of_le' (Nat.le_of_add_left_le hfuel)
  rw [h.skip hopening]
  cases hread with
  | nil =>
      rw [separated, List.nil_append, h.skip hending, h.stop]
  | @cons text a texts as hone hread =>
      obtain ⟨c, s, htext, hblank, hne⟩ := hone.starts
      have hlength : 0 < text.length := by rw [htext]; exact Nat.succ_pos _
      rw [separated_cons, List.length_append] at hfuel
      have hfollowing := h.read_following hgap hending rest hread (show _ < fuel by omega)
      have hread := hone.read fuel [] _ .nil (by omega)
        (h.ends_following gap hending rest texts)
      rw [hfollowing, List.nil_append] at hread
      rw [separated_cons, List.append_assoc]
      rw [htext, List.cons_append] at hread ⊢
      rw [h.start hblank hne, hread]

end Series

/-! ### Lists and objects -/

theorem Reads.item {text : List Char} {d : Document} (h : Reads text d) :
    ReadsOne ']' (readItems none) (readItem none) text d where
  starts := by
    obtain ⟨c, rest, htext, hblank, hne, -⟩ := h.starts
    exact ⟨c, rest, htext, hblank, hne⟩
  read := by
    intro fuel blanks rest hblanks hfuel hrest
    rw [readItem, readValue_blanks hblanks, h.read fuel rest hfuel hrest]

theorem Reads.member (name : String) {gap text : List Char} {d : Document} (hgap : Blanks gap)
    (h : Reads text d) :
    ReadsOne '\x7d' (readMembers none) (readMember none)
      (Json.quoted name.toList ++ ':' :: (gap ++ text)) (.text (.ok name) none, d) where
  starts := ⟨_, _, rfl, by decide, by decide⟩
  read := by
    intro fuel blanks rest hblanks hfuel hrest
    simp only [List.length_append, List.length_cons] at hfuel
    have hname := (Reads.quoted name).read fuel (':' :: (gap ++ (text ++ rest))) (by omega)
      (endsNumber_cons (by decide))
    have hvalue := h.read fuel rest (by omega) hrest
    rw [readMember, readValue_blanks hblanks]
    simp only [List.append_assoc, List.cons_append, hname, skipBlanks_cons (c := ':') (by decide),
      readValue_blanks hgap, hvalue]

theorem Reads.list {texts : List (List Char)} {ds : List Document}
    (h : List.Forall₂ Reads texts ds) {opening gap ending : List Char} (hopening : Blanks opening)
    (hgap : Blanks gap) (hending : Blanks ending) :
    Reads ('[' :: (opening ++ (separated (',' :: gap) texts ++ (ending ++ [']']))))
      (.list ds none) where
  starts := ⟨_, _, rfl, by decide, by decide, by decide⟩
  read := by
    intro fuel rest hfuel _
    simp only [List.length_append, List.length_cons] at hfuel
    obtain ⟨fuel, rfl⟩ := Nat.exists_eq_add_of_le' (show 1 ≤ fuel by omega)
    have hread := isSeries_items.read_separated hopening hgap hending rest
      (h.imp fun _ _ h => h.item) (show _ ≤ fuel by omega)
    simp only [List.cons_append, List.append_assoc, List.nil_append]
    rw [readValue, skipBlanks_cons (by decide)]
    simp only [hread]

theorem Reads.object {texts : List (List Char)} {members : List (Document × Document)}
    (h : List.Forall₂ (ReadsOne '\x7d' (readMembers none) (readMember none)) texts members)
    {opening gap ending : List Char} (hopening : Blanks opening) (hgap : Blanks gap)
    (hending : Blanks ending) :
    Reads ('\x7b' :: (opening ++ (separated (',' :: gap) texts ++ (ending ++ ['\x7d']))))
      (.object members none) where
  starts := ⟨_, _, rfl, by decide, by decide, by decide⟩
  read := by
    intro fuel rest hfuel _
    simp only [List.length_append, List.length_cons] at hfuel
    obtain ⟨fuel, rfl⟩ := Nat.exists_eq_add_of_le' (show 1 ≤ fuel by omega)
    have hread := isSeries_members.read_separated hopening hgap hending rest h
      (show _ ≤ fuel by omega)
    simp only [List.cons_append, List.append_assoc, List.nil_append]
    rw [readValue, skipBlanks_cons (by decide)]
    simp only [hread]

/-! ### Whole texts -/

/-- A whole text is read as its document. -/
theorem Reads.ofText {text : List Char} {d : Document} (h : Reads text d) :
    Document.ofText text = (d, some []) := by
  have hread := h.read (3 * text.length + 4) [] (Nat.le_add_right _ _) (fun _ h => by cases h)
  rwa [List.append_nil] at hread

theorem Reads.readAll {text : List Char} {d : Document} (h : Reads text d) {α : Type}
    (shape : Document → Except Fault α) : Document.readAll shape text = shape d := by
  simp only [Document.readAll, h.ofText]
  cases shape d with
  | error fault => rfl
  | ok a => rfl

end TrafficWatch.Json
