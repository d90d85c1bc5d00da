import TrafficWatch.Json.Reader

/-!
# Verdict

What a detector says of an event: that it is normal, or that it is an anomaly for a `Reason`.  Each
reason has one name, by which it is written everywhere, and belongs to the rules or to the model.
-/

namespace TrafficWatch

/-- Why an event is an anomaly. -/
inductive Reason where
  /-- Too many requests a second. -/
  | rpsSpike
  /-- Too many faults of the client. -/
  | clientErrorSpike
  /-- Too many faults of the server. -/
  | serverErrorSpike
  /-- Too many hits of the firewall. -/
  | wafSpike
  /-- The user agent says too little. -/
  | lowAgentEntropy
  /-- The model finds it far from normal. -/
  | outlier
deriving Repr, DecidableEq

namespace Reason

/-- All reasons. -/
def all : List Reason :=
  [rpsSpike, clientErrorSpike, serverErrorSpike, wafSpike, lowAgentEntropy, outlier]

/-- The name of a reason. -/
def name : Reason → String
  | rpsSpike => "rps_spike"
  | clientErrorSpike => "4xx_spike"
  | serverErrorSpike => "5xx_spike"
  | wafSpike => "waf_spike"
  | lowAgentEntropy => "ua_low_entropy"
  | outlier => "ml_outlier"

/-- The name of the detector that gives the reason. -/
def detector : Reason → String
  | outlier => "ml"
  | _ => "rules"

/-- The reason of the given name. -/
def ofName? (name : String) : Option Reason :=
  all.find? (·.name == name)

/-- The reason written by a JSON text. -/
def read (text : List Char) : Except Json.Fault Reason :=
  Json.Document.readAll (Json.Document.choice ofName?) text

/-- The reason as a JSON value. -/
def toJson (r : Reason) : Json.Value :=
  .text r.name

end Reason

/-- What a detector says of an event. -/
inductive Verdict where
  | normal
  | anomaly (reason : Reason)
deriving Repr, DecidableEq

namespace Verdict

/-- Whether the event is an anomaly. -/
def isAnomaly : Verdict → Bool
  | normal => false
  | anomaly _ => true

/-- The reason for an anomaly. -/
def reason? : Verdict → Option Reason
  | normal => none
  | anomaly r => some r

/-- The name of the reason, empty for what is normal. -/
def reasonName (v : Verdict) : String :=
  match v.reason? with
  | some r => r.name
  | none => ""

end Verdict

end TrafficWatch
