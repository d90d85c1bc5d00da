import TrafficWatch.Text.Blank
import TrafficWatch.Text.Bytes

/-!
# Text — Blank

Texts as bytes and back, and what is left of a text without its blanks.
-/

namespace TrafficWatch.Text

/-- The bytes of a text are the bytes of that text. -/
theorem ofBytes?_toUTF8 (s : String) : ofBytes? s.toUTF8 = some s :=
  dif_pos s.isValidUTF8

theorem ofBytes_toUTF8 (s : String) : Decoded.ofBytes s.toUTF8 = s.toList := by
  unfold Decoded.ofBytes
  rw [ofBytes?_toUTF8]

/-- No character of a text is a blank. -/
def Unblank (s : List Char) : Prop :=
  ∀ c ∈ s, isBlank c = false

instance (s : List Char) : Decidable (Unblank s) :=
  decidable_of_iff (s.all (!isBlank ·) = true) (by simp [Unblank])

theorem isBlank_of_isDigit {c : Char} (h : c.isDigit = true) : isBlank c = false := by
  obtain ⟨hlow, hhigh⟩ := Char.isDigit_iff_toNat.mp h
  have hlow : 48 ≤ c.toNat := hlow
  have hhigh : c.toNat ≤ 57 := hhigh
  simp only [isBlank, Bool.or_eq_false_iff, Bool.and_eq_false_iff, decide_eq_false_iff_not]
  omega

theorem dropWhile_unblank {s : List Char} (h : Unblank s) (hne : s ≠ []) (rest : List Char) :
    (s ++ rest).dropWhile isBlank = s ++ rest := by
  cases s with
  | nil => exact absurd rfl hne
  | cons c s => exact List.dropWhile_cons_of_neg (by simp [h c List.mem_cons_self])

/-- Nothing is cut off at the start of a text that starts without a blank. -/
theorem trimStart_unblank {s : List Char} (h : Unblank s) (hne : s ≠ []) (rest : List Char) :
    trimStart (s ++ rest) = s ++ rest :=
  dropWhile_unblank h hne rest

theorem Unblank.reverse {s : List Char} (h : Unblank s) : Unblank s.reverse :=
  fun c hc => h c (List.mem_reverse.mp hc)

/-- Blanks at the end of a text are cut off. -/
theorem trimEnd_append {front s blanks : List Char} (h : Unblank s) (hne : s ≠ [])
    (hblanks : ∀ c ∈ blanks, isBlank c = true) : trimEnd (front ++ s ++ blanks) = front ++ s := by
  unfold trimEnd
  rw [List.reverse_append,
    List.dropWhile_append_of_pos fun c hc => hblanks c (List.mem_reverse.mp hc),
    List.reverse_append,
    dropWhile_unblank h.reverse (by simpa using hne), List.reverse_append, List.reverse_reverse,
    List.reverse_reverse]

theorem trim_unblank {s : List Char} (h : Unblank s) : trim s = s := by
  by_cases hne : s = []
  · rw [hne]
    rfl
  · have hstart := trimStart_unblank h hne []
    have hend : trimEnd ([] ++ s ++ []) = [] ++ s := trimEnd_append h hne (fun _ h => by cases h)
    rw [List.append_nil] at hstart
    rw [List.append_nil, List.nil_append] at hend
    rw [trim, hstart, hend]

/-- A line feed is a blank. -/
theorem Unblank.unbroken {s : List Char} (h : Unblank s) : '\n' ∉ s := fun hc => by
  cases h _ hc

/-- A text is split at its first blank. -/
theorem splitBlank_append {word rest : List Char} {blank : Char} (h : Unblank word)
    (hblank : isBlank blank = true) : splitBlank (word ++ blank :: rest) = some (word, rest) := by
  have hpos : ∀ c ∈ word, (!isBlank c) = true := fun c hc => by rw [h c hc]; rfl
  unfold splitBlank
  rw [List.dropWhile_append_of_pos hpos, List.dropWhile_cons_of_neg (by simp [hblank]),
    List.takeWhile_append_of_pos hpos, List.takeWhile_cons_of_neg (by simp [hblank]),
    List.append_nil]

theorem splitBlank_unblank {s : List Char} (h : Unblank s) : splitBlank s = none := by
  have hpos : ∀ c ∈ s, (!isBlank c) = true := fun c hc => by rw [h c hc]; rfl
  have hnone : (s ++ []).dropWhile (!isBlank ·) = [] := List.dropWhile_append_of_pos hpos
  rw [List.append_nil] at hnone
  rw [splitBlank, hnone]

/-- What stands before and after the first blank. -/
theorem splitBlank_eq_some {s word rest : List Char} (h : splitBlank s = some (word, rest)) :
    Unblank word ∧ ∃ blank, isBlank blank = true ∧ s = word ++ blank :: rest := by
  have hhead := List.head?_dropWhile_not (!isBlank ·) s
  have happend := List.takeWhile_append_dropWhile (p := (!isBlank ·)) (l := s)
  unfold splitBlank at h
  split at h
  · cases h
  · rename_i blank rest' hdrop
    cases h
    rw [hdrop] at hhead happend
    refine ⟨fun c hc => ?_, blank, by simpa using hhead, happend.symm⟩
    simpa using List.all_eq_true.mp List.all_takeWhile c hc

/-! ### Blanks around a text -/

/-- Every character of a text is a blank. -/
def Blank (s : List Char) : Prop :=
  ∀ c ∈ s, isBlank c = true

instance (s : List Char) : Decidable (Blank s) :=
  decidable_of_iff (s.all isBlank = true) (by simp [Blank])

theorem Blank.append {s t : List Char} (hs : Blank s) (ht : Blank t) : Blank (s ++ t) :=
  fun c hc => (List.mem_append.mp hc).elim (hs c) (ht c)

theorem blank_takeWhile (s : List Char) : Blank (s.takeWhile isBlank) :=
  fun c hc => List.all_eq_true.mp List.all_takeWhile c hc

/-- What is cut off a text are blanks at its ends. -/
theorem exists_trim (s : List Char) :
    ∃ lead trail, Blank lead ∧ Blank trail ∧ s = lead ++ trim s ++ trail := by
  refine ⟨s.takeWhile isBlank, ((trimStart s).reverse.takeWhile isBlank).reverse,
    blank_takeWhile s, fun c hc => blank_takeWhile _ c (List.mem_reverse.mp hc), ?_⟩
  have hend : trim s ++ ((trimStart s).reverse.takeWhile isBlank).reverse = trimStart s := by
    rw [trim, trimEnd, ← List.reverse_append, List.takeWhile_append_dropWhile, List.reverse_reverse]
  rw [List.append_assoc, hend]
  exact List.takeWhile_append_dropWhile.symm

theorem trimStart_blank {s : List Char} (h : Blank s) : trimStart s = [] := by
  have hdrop : (s ++ []).dropWhile isBlank = [] := List.dropWhile_append_of_pos h
  rwa [List.append_nil] at hdrop

theorem trim_blank {s : List Char} (h : Blank s) : trim s = [] := by
  rw [trim, trimStart_blank h]
  rfl

/-- Blanks at the end of a text do not matter to what is left of it. -/
theorem trim_append {blanks : List Char} (h : Blank blanks) (s : List Char) :
    trim (s ++ blanks) = trim s := by
  unfold trim trimStart
  rw [List.dropWhile_append]
  split
  · rename_i hempty
    have hnil := List.isEmpty_iff.mp hempty
    have hblanks : blanks.dropWhile isBlank = [] := trimStart_blank h
    rw [hnil, hblanks]
  · unfold trimEnd
    rw [List.reverse_append, List.dropWhile_append_of_pos fun c hc => h c (List.mem_reverse.mp hc)]

/-- Blanks around a text are cut off if it begins and ends without a blank. -/
theorem trim_around {lead front back trail : List Char} (hlead : Blank lead) (htrail : Blank trail)
    (hstart : trimStart (front ++ back ++ trail) = front ++ back ++ trail) (hback : Unblank back)
    (hne : back ≠ []) : trim (lead ++ (front ++ back) ++ trail) = front ++ back := by
  have hlead' : trimStart (lead ++ (front ++ back) ++ trail) = trimStart (front ++ back ++ trail) := by
    rw [trimStart, List.append_assoc, List.dropWhile_append_of_pos hlead]
    rfl
  rw [trim, hlead', hstart, trimEnd_append hback hne htrail]

end TrafficWatch.Text
