import TrafficWatch.Event.Basic
import TrafficWatch.Json.Reader

/-!
# Event — Text

Events as JSON, one object with a member for each field.  `Event.toJson` writes all members in a
fixed order.  `Event.read` accepts them in any order or as a list, skips members of other names, and
lets the client be absent; every other member has to be there exactly once.
-/

namespace TrafficWatch

open Json (Value Document Fault)

namespace Event

/-- The event as an object. -/
def toJson (e : Event) : Value :=
  .object [
    ("client_id", match e.clientId with | some id => .text id | none => .null),
    ("rps_estimate", .ofFloat e.rate),
    ("status", .ofNat e.status.toNat),
    ("schema_error", .bool e.schemaError),
    ("waf_hit", .bool e.wafHit),
    ("method", .text e.method),
    ("route_key", .text e.route),
    ("ua_entropy", .ofFloat e.agentEntropy)]

/-- The event on one line. -/
def render (e : Event) : List Char :=
  e.toJson.compact

/-- The members of an event that have been read. -/
structure Draft where
  clientId : Option (Option String) := none
  rate : Option Float := none
  status : Option UInt16 := none
  schemaError : Option Bool := none
  wafHit : Option Bool := none
  method : Option String := none
  route : Option String := none
  agentEntropy : Option Float := none

/-- The fields of an event in their order. -/
def fields : List (Document.Field Draft) := [
  ⟨"client_id", (·.clientId.isSome), fun d draft => do
    let v ← d.string?
    return { draft with clientId := some v }⟩,
  ⟨"rps_estimate", (·.rate.isSome), fun d draft => do
    let v ← d.float
    return { draft with rate := some v }⟩,
  ⟨"status", (·.status.isSome), fun d draft => do
    let v ← d.naturalBelow (twoTo 16)
    return { draft with status := some (UInt16.ofNat v) }⟩,
  ⟨"schema_error", (·.schemaError.isSome), fun d draft => do
    let v ← d.truth
    return { draft with schemaError := some v }⟩,
  ⟨"waf_hit", (·.wafHit.isSome), fun d draft => do
    let v ← d.truth
    return { draft with wafHit := some v }⟩,
  ⟨"method", (·.method.isSome), fun d draft => do
    let v ← d.string
    return { draft with method := some v }⟩,
  ⟨"route_key", (·.route.isSome), fun d draft => do
    let v ← d.string
    return { draft with route := some v }⟩,
  ⟨"ua_entropy", (·.agentEntropy.isSome), fun d draft => do
    let v ← d.float
    return { draft with agentEntropy := some v }⟩]

/-- The event of a draft in which nothing but the client is missing. -/
def Draft.finish (d : Draft) : Option Event := do
  let rate ← d.rate
  let status ← d.status
  let schemaError ← d.schemaError
  let wafHit ← d.wafHit
  let method ← d.method
  let route ← d.route
  let agentEntropy ← d.agentEntropy
  return ⟨d.clientId.getD none, rate, status, schemaError, wafHit, method, route, agentEntropy⟩

/-- The event written by a document. -/
def ofDocument : Document → Except Fault Event :=
  Document.record fields {} Draft.finish

/-- The event written by a text. -/
def read (text : List Char) : Except Fault Event :=
  Document.readAll ofDocument text

end Event

end TrafficWatch
