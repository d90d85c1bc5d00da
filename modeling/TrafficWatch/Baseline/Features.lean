import TrafficWatch.Event.Basic

/-!
# Baseline — Features

The numbers by which the model knows an event: its rate, whether the client, the server or the
firewall was concerned, the entropy of the user agent and whether something was posted.
-/

namespace TrafficWatch

/-- The number of features. -/
def dimension : Nat := 6

/-- The features of an event. -/
abbrev Features := Vector Float 6

/-- One for what holds, zero for what does not. -/
def indicator (b : Bool) : Float :=
  if b then 1.0 else 0.0

/-- The features of an event, in their order. -/
def Event.features (e : Event) : Features :=
  #v[e.rate, indicator e.isClientError, indicator e.isServerError, indicator e.wafHit,
    e.agentEntropy, indicator e.isPost]

/-- The rate among the features. -/
def Features.rate (v : Features) : Float :=
  v[0]

end TrafficWatch
