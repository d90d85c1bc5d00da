import TrafficWatch.Proofs.Decimal.Layout
import TrafficWatch.Proofs.Text.Blank

/-!
# Decimal — Unblank

Numbers have no blanks, however they are laid out.
-/

namespace TrafficWatch.Decimal

theorem unblank_natural (n : Nat) : Text.Unblank (natural n) :=
  fun c hc => Text.isBlank_of_isDigit (isDigit_natural n c hc)

theorem Spelling.unblank_exponentText (plusSign : Bool) (e : Int) :
    Text.Unblank (exponentText plusSign e) := by
  intro c hc
  unfold exponentText at hc
  split at hc
  · rcases List.mem_cons.mp hc with rfl | hc
    · decide
    · exact unblank_natural _ c hc
  split at hc
  · rcases List.mem_cons.mp hc with rfl | hc
    · decide
    · exact unblank_natural _ c hc
  · exact unblank_natural _ c hc

theorem Spelling.IsProper.unblank_text {s : Spelling} (hs : s.IsProper) : Text.Unblank s.text := by
  intro c hc
  rcases List.mem_append.mp hc with hc | hc
  · exact Text.isBlank_of_isDigit (hs.whole c hc)
  unfold tail at hc
  rcases List.mem_append.mp hc with hc | hc
  · cases hf : s.fraction with
    | none => simp [hf] at hc
    | some f =>
        rw [hf] at hc
        rcases List.mem_cons.mp hc with rfl | hc
        · decide
        · exact Text.isBlank_of_isDigit ((hs.fraction f hf).2 c hc)
  · cases he : s.exponent with
    | none => simp [he] at hc
    | some e =>
        rw [he] at hc
        rcases List.mem_cons.mp hc with rfl | hc
        · decide
        · exact unblank_exponentText _ e c hc

/-- The text of a finite double has no blanks. -/
theorem Layout.unblank_render_of_isFinite (l : Layout) {x : Float} (hx : x.isFinite = true) :
    Text.Unblank (l.render x) ∧ l.render x ≠ [] := by
  obtain ⟨s, hs, htext, -⟩ := l.exists_spelling hx
  have hne : s.text ≠ [] := fun h => hs.nonempty (List.append_eq_nil_iff.mp h).1
  rw [htext]
  split
  · refine ⟨fun c hc => ?_, by simp⟩
    rcases List.mem_cons.mp hc with rfl | hc
    · decide
    · exact hs.unblank_text c hc
  · exact ⟨hs.unblank_text, hne⟩

end TrafficWatch.Decimal
