import TrafficWatch.Proofs.Json.Document
import TrafficWatch.Proofs.Pca.Sound
import TrafficWatch.Pca.Text

/-!
# Pca — Text

The text of a model is read as that model, part by part, or not at all (`PcaModel.read_pretty`):
numbers that are not finite are written as null, and null is no number.
-/

namespace TrafficWatch

namespace PcaModel

open Json (Document Value)

theorem listOf_listJson (xs : List Float) :
    (listJson xs).document.listOf Document.float =
      if xs.all Float.isFinite then .ok xs else .error .mismatched :=
  Document.listOf_map Document.float_ofFloat xs

/-- The members of a model are read one after the other. -/
theorem ofDocument_toJson (m : PcaModel) :
    ofDocument m.toJson.document = do
      let means ← (listJson m.means).document.listOf Document.float
      let scales ← (listJson m.scales).document.listOf Document.float
      let components ←
        (Value.list (m.components.map listJson)).document.listOf (Document.listOf Document.float)
      let eigenvalues ← (listJson m.eigenvalues).document.listOf Document.float
      let sampleCount ← (Value.ofNat m.sampleCount).document.naturalBelow (twoTo 64)
      return ⟨means, scales, components, eigenvalues, sampleCount⟩ := by
  change (Document.readMembers fields (Value.memberDocuments [_, _, _, _, _]) none {} >>= _) = _
  simp only [Value.memberDocuments]
  -- one member after the other, each the first of those that are left
  iterate 5
    rw [Document.readMembers_cons (by rfl) (by rfl)]
    simp only [bind_assoc, pure_bind]
    refine bind_congr fun _ => ?_
  rfl

theorem all_numbers (m : PcaModel) :
    (numbers m).all Float.isFinite = (m.means.all Float.isFinite && m.scales.all Float.isFinite &&
      m.eigenvalues.all Float.isFinite && m.components.all (·.all Float.isFinite)) := by
  simp only [numbers, List.all_append, List.all_flatten]

/-- **The text of a model is read as that model**, and it is read at all only if every number of it
is finite and the count of its samples fits a machine word. -/
theorem read_pretty {m m' : PcaModel} :
    PcaModel.read m.toJson.pretty = .ok m' ↔
      m' = m ∧ (numbers m).all Float.isFinite = true ∧ m.sampleCount < twoTo 64 := by
  have hlists := Document.listOf_map listOf_listJson m.components
  rw [PcaModel.read, (Value.reads_pretty _).readAll, ofDocument_toJson, hlists]
  simp only [listOf_listJson]
  rw [all_numbers]
  simp only [Bool.and_eq_true]
  constructor
  · intro h
    obtain ⟨means, hread, h⟩ := bind_eq_ok h
    obtain ⟨hmeans, rfl⟩ := ite_eq_ok.mp hread
    obtain ⟨scales, hread, h⟩ := bind_eq_ok h
    obtain ⟨hscales, rfl⟩ := ite_eq_ok.mp hread
    obtain ⟨components, hread, h⟩ := bind_eq_ok h
    obtain ⟨hcomponents, rfl⟩ := ite_eq_ok.mp hread
    obtain ⟨eigenvalues, hread, h⟩ := bind_eq_ok h
    obtain ⟨heigenvalues, rfl⟩ := ite_eq_ok.mp hread
    obtain ⟨sampleCount, hread, h⟩ := bind_eq_ok h
    obtain ⟨hbound, rfl⟩ := (Document.naturalBelow_ofNat le_rfl).mp hread
    cases h
    exact ⟨rfl, ⟨⟨⟨hmeans, hscales⟩, heigenvalues⟩, hcomponents⟩, hbound⟩
  · rintro ⟨rfl, ⟨⟨⟨hmeans, hscales⟩, heigenvalues⟩, hcomponents⟩, hbound⟩
    rw [hmeans, hscales, hcomponents, heigenvalues,
      (Document.naturalBelow_ofNat le_rfl).mpr ⟨hbound, rfl⟩]
    rfl

/-- A model that can be used has no number that is not finite. -/
theorem all_isFinite_of_fault? {m : PcaModel} (h : fault? m = none) :
    (numbers m).all Float.isFinite = true :=
  List.all_eq_true.mpr (fault?_eq_none.mp h).finite

/-- The model that passes the check is the one that was checked. -/
theorem checked_eq_ok {m m' : PcaModel} : m.checked = .ok m' ↔ fault? m = none ∧ m' = m := by
  unfold checked
  cases fault? m with
  | some fault => exact ⟨nofun, nofun⟩
  | none => exact ⟨fun h => ⟨rfl, (Except.ok.inj h).symm⟩, fun h => h.2 ▸ rfl⟩

end PcaModel

end TrafficWatch
