import TrafficWatch.Pca.Model
import TrafficWatch.Json.Reader

/-!
# Pca — Text

Models as JSON, one object with a member for each part.  `PcaModel.read` accepts the members in any
order or as a list and skips others; whether the model can be used is another question, which
`PcaModel.fault?` answers.
-/

namespace TrafficWatch.PcaModel

open Json (Value Document Fault)

/-- Numbers as a list. -/
def listJson (xs : List Float) : Value :=
  .list (xs.map .ofFloat)

/-- The model as an object. -/
def toJson (m : PcaModel) : Value :=
  .object [
    ("means", listJson m.means),
    ("scales", listJson m.scales),
    ("components", .list (m.components.map listJson)),
    ("eigenvalues", listJson m.eigenvalues),
    ("sample_count", .ofNat m.sampleCount)]

/-- The members of a model that have been read. -/
structure Draft where
  means : Option (List Float) := none
  scales : Option (List Float) := none
  components : Option (List (List Float)) := none
  eigenvalues : Option (List Float) := none
  sampleCount : Option Nat := none

/-- The fields of a model in their order. -/
def fields : List (Document.Field Draft) := [
  ⟨"means", (·.means.isSome), fun d draft => do
    let v ← d.listOf Document.float
    return { draft with means := some v }⟩,
  ⟨"scales", (·.scales.isSome), fun d draft => do
    let v ← d.listOf Document.float
    return { draft with scales := some v }⟩,
  ⟨"components", (·.components.isSome), fun d draft => do
    let v ← d.listOf (Document.listOf Document.float)
    return { draft with components := some v }⟩,
  ⟨"eigenvalues", (·.eigenvalues.isSome), fun d draft => do
    let v ← d.listOf Document.float
    return { draft with eigenvalues := some v }⟩,
  ⟨"sample_count", (·.sampleCount.isSome), fun d draft => do
    let v ← d.naturalBelow (twoTo 64)
    return { draft with sampleCount := some v }⟩]

/-- The model of a draft in which nothing is missing. -/
def Draft.finish (d : Draft) : Option PcaModel := do
  return ⟨← d.means, ← d.scales, ← d.components, ← d.eigenvalues, ← d.sampleCount⟩

/-- The model written by a document. -/
def ofDocument : Document → Except Fault PcaModel :=
  Document.record fields {} Draft.finish

/-- The model written by a text. -/
def read (text : Text.Decoded) : Except Fault PcaModel :=
  Document.readAll ofDocument text

end TrafficWatch.PcaModel
