import TrafficWatch.Event.Text
import TrafficWatch.Proofs.Json.Document

/-!
# Event — Text

The text of an event is read as that event, member by member, or not at all (`Event.read_render`): an
event with a number that is not finite cannot be read back, for such a number is written as null.  The
text stands on one line (`Event.unbroken_render`), and blanks around it can be told from it
(`Event.trim_render`).
-/

namespace TrafficWatch

open Json (Document Value)

namespace Event

/-- The numbers of the event are finite. -/
def IsFinite (e : Event) : Prop :=
  e.rate.isFinite = true ∧ e.agentEntropy.isFinite = true

instance (e : Event) : Decidable e.IsFinite :=
  inferInstanceAs (Decidable (_ ∧ _))

/-! ### What is read back -/

/-- The members of an event are read one after the other. -/
theorem ofDocument_toJson (e : Event) :
    ofDocument e.toJson.document = do
      let clientId ← (match e.clientId with
        | some id => Value.text id
        | none => Value.null).document.string?
      let rate ← (Value.ofFloat e.rate).document.float
      let status ← (Value.ofNat e.status.toNat).document.naturalBelow (twoTo 16)
      let schemaError ← (Value.bool e.schemaError).document.truth
      let wafHit ← (Value.bool e.wafHit).document.truth
      let method ← (Value.text e.method).document.string
      let route ← (Value.text e.route).document.string
      let agentEntropy ← (Value.ofFloat e.agentEntropy).document.float
      return ⟨clientId, rate, UInt16.ofNat status, schemaError, wafHit, method, route,
        agentEntropy⟩ := by
  change (Document.readMembers fields
    (Value.memberDocuments [_, _, _, _, _, _, _, _]) none {} >>= _) = _
  simp only [Value.memberDocuments]
  -- one member after the other, each the first of those that are left
  iterate 8
    rw [Document.readMembers_cons (by rfl) (by rfl)]
    simp only [bind_assoc, pure_bind]
    refine bind_congr fun _ => ?_
  rfl

theorem string?_clientId (id? : Option String) :
    (match id? with
      | some id => Value.text id
      | none => Value.null).document.string? = .ok id? := by
  cases id? with
  | none => rfl
  | some id => rfl

theorem naturalBelow_status (status : UInt16) :
    (Value.ofNat status.toNat).document.naturalBelow (twoTo 16) = .ok status.toNat :=
  (Document.naturalBelow_ofNat (by decide)).mpr ⟨status.toNat_lt, rfl⟩

/-- **The text of an event is read as that event** if its numbers are finite, and is refused
otherwise. -/
theorem read_render (e : Event) :
    Event.read e.render = if e.IsFinite then .ok e else .error .mismatched := by
  rw [Event.read, render, (Value.reads_compact _).readAll, ofDocument_toJson, string?_clientId,
    naturalBelow_status, Document.float_ofFloat, Document.float_ofFloat]
  by_cases hrate : e.rate.isFinite = true
  · by_cases hentropy : e.agentEntropy.isFinite = true
    · have hfinite : e.IsFinite := ⟨hrate, hentropy⟩
      rw [if_pos hrate, if_pos hentropy, if_pos hfinite]
      change Except.ok { e with status := UInt16.ofNat e.status.toNat } = .ok e
      rw [UInt16.ofNat_toNat]
    · have hfinite : ¬e.IsFinite := fun h => hentropy h.2
      rw [if_pos hrate, if_neg hentropy, if_neg hfinite]
      rfl
  · have hfinite : ¬e.IsFinite := fun h => hrate h.1
    rw [if_neg hrate, if_neg hfinite]
    rfl

/-! ### One line -/

/-- The text of an event has no line feed in it. -/
theorem unbroken_render (e : Event) : '\n' ∉ e.render :=
  e.toJson.unbroken_compact

/-- Blanks around the text of an event are cut off, and nothing else. -/
theorem trim_render (e : Event) {lead trail : List Char} (hlead : Text.Blank lead)
    (htrail : Text.Blank trail) : Text.trim (lead ++ e.render ++ trail) = e.render := by
  -- the text is an object, so it stands between braces
  have hbraces : e.render = '\x7b' :: _ ++ ['\x7d'] := rfl
  rw [hbraces]
  refine Text.trim_around hlead htrail ?_ (by decide) (List.cons_ne_nil _ _)
  exact List.dropWhile_cons_of_neg (by decide)

end Event

end TrafficWatch
