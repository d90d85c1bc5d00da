import TrafficWatch.Event.Route
import TrafficWatch.Event.Entropy

/-!
# Event

A completed request as the detectors see it.  An `Event` is made once, from a `Signal` that the
gateway has gathered about a request (`Event.ofSignal`), and never changes.  An event is *clean* when
neither the firewall nor the validation of its schema objected: only clean events may teach the
detectors what is normal.
-/

namespace TrafficWatch

/-- A completed request. -/
structure Event where
  /-- Who made the request, if it is known. -/
  clientId : Option String
  /-- The estimated requests per second of the client. -/
  rate : Float
  /-- The status of the response. -/
  status : UInt16
  /-- The body did not match its schema. -/
  schemaError : Bool
  /-- The web application firewall objected. -/
  wafHit : Bool
  method : String
  route : String
  /-- The entropy of the user agent, in bits. -/
  agentEntropy : Float

/-- What the gateway knows of a request. -/
structure Signal where
  clientId : Option String := none
  rate : Float := 0.0
  status : UInt16 := 0
  schemaError : Bool := false
  wafHit : Bool := false
  method : String := ""
  path : String := ""
  userAgent : String := ""

namespace Event

/-- The event of a request. -/
def ofSignal (s : Signal) : Event where
  clientId := s.clientId
  rate := s.rate
  status := s.status
  schemaError := s.schemaError
  wafHit := s.wafHit
  method := s.method
  route := routeOf s.path
  agentEntropy := entropy s.userAgent

/-- The key under which requests of unknown clients are counted. -/
def unknownClient : String := "unknown"

/-- The key under which the client is counted. -/
def clientKey (e : Event) : String :=
  e.clientId.getD unknownClient

/-- The client was at fault. -/
def isClientError (e : Event) : Bool :=
  400 ≤ e.status && e.status < 500

/-- The server was at fault. -/
def isServerError (e : Event) : Bool :=
  500 ≤ e.status

/-- The request posted something; the case of the method does not matter. -/
def isPost (e : Event) : Bool :=
  e.method.toList.map Char.toUpper == "POST".toList

/-- Nothing objected to the request. -/
def isClean (e : Event) : Bool :=
  !e.wafHit && !e.schemaError

end Event

end TrafficWatch
