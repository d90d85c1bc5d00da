import TrafficWatch.Proofs.Json.Value

/-!
# Json — Document

The parts of a record that is read back: numbers, lists of items of one shape, and the members of an
object, each by the field of its name.
-/

namespace TrafficWatch.Json.Document

/-- A double is read as it is, if it is finite. -/
theorem float_ofFloat (x : Float) :
    (Value.ofFloat x).document.float = if x.isFinite then .ok x else .error .mismatched := by
  cases hx : x.isFinite with
  | false =>
      change (Number.real x).document.float = _
      rw [Number.document_infinite hx]
      rfl
  | true =>
      obtain ⟨n, hn, hdocument⟩ := Number.document_finite hx
      change (Number.real x).document.float = _
      rw [hdocument, float, hn.number? hx]
      rfl

/-- A natural number is read as it is, if it lies below the bound. -/
theorem naturalBelow_ofNat {bound n k : Nat} (hbound : bound ≤ twoTo 64) :
    (Value.ofNat n).document.naturalBelow bound = .ok k ↔ n < bound ∧ k = n := by
  have hdocument : (Value.ofNat n).document = .number ⟨false, n, 0, true⟩ := rfl
  rw [hdocument, naturalBelow, Numeral.number?]
  simp only [Bool.not_false, Bool.and_self, Bool.true_and, Bool.and_false, Bool.false_and,
    Bool.false_eq_true, if_false, decide_eq_true_eq]
  generalize twoTo 64 = word at hbound
  by_cases h : n < word
  · simp only [h, if_true]
    by_cases hn : n < bound
    · simp only [hn, if_true, true_and, Except.ok.injEq]
      exact eq_comm
    · simp only [hn, if_false, false_and, reduceCtorEq]
  · have hn : ¬n < bound := fun hn => h (hn.trans_le hbound)
    simp only [h, if_false, hn, false_and, iff_false]
    split
    · split at ‹_ = some _› <;> cases ‹_ = some _›
    · exact fun h => by cases h

/-- The first member of an object is read by the field of its name. -/
theorem readMembers_cons {δ : Type} {fields : List (Field δ)} {field : Field δ}
    {name : String} {draft : δ} (hfind : fields.find? (·.name == name) = some field)
    (hnew : field.isRead draft = false) (skipped : Option Fault) (value : Document)
    (rest : List (Document × Document)) (ending : Option Fault) :
    readMembers fields ((.text (.ok name) skipped, value) :: rest) ending draft =
      field.read value draft >>= readMembers fields rest ending := by
  simp only [readMembers, hfind, hnew, Bool.false_eq_true, if_false]

/-- A list of one shape of items, of which those that can be read are read as they are. -/
theorem listOf_map {α : Type} {item : Document → Except Fault α} {toJson : α → Value}
    {p : α → Bool} {fault : Fault}
    (h : ∀ a, item (toJson a).document = if p a then .ok a else .error fault) (as : List α) :
    (Value.list (as.map toJson)).document.listOf item =
      if as.all p then .ok as else .error fault := by
  rw [Value.document, listOf]
  have hmap : (Value.documents (as.map toJson)).mapM item =
      if as.all p then .ok as else .error fault := by
    induction as with
    | nil => rfl
    | cons a as ih =>
        rw [List.map_cons, Value.documents, List.mapM_cons, h, ih, List.all_cons]
        cases p a <;> cases as.all p <;> rfl
  rw [hmap]
  cases as.all p <;> rfl

end TrafficWatch.Json.Document
