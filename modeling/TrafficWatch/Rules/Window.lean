import TrafficWatch.Event.Basic
import TrafficWatch.Time.Instant

/-!
# Rules — Window

What is counted for one client on one route.  A `Window` keeps, oldest first, the times of the
requests and of the errors and hits among them.  Recording an event adds its time at the end and then
drops times from the front for as long as they are too old, so a count never includes what has left
its span.  The rate divides the number of requests by the age of the oldest of them, held between one
second and the span.
-/

namespace TrafficWatch

/-- Times that are still counted, oldest first. -/
abbrev Timeline := List Instant

namespace Timeline

/-- The times without those at the front that are older than the span. -/
def expire (times : Timeline) (now : Instant) (span : Duration) : Timeline :=
  times.dropWhile fun t => decide (span < now - t)

/-- The times with one more at the end, if it counts. -/
def note (times : Timeline) (now : Instant) (counts : Bool) : Timeline :=
  if counts then times ++ [now] else times

end Timeline

/-- What is counted for one client on one route. -/
structure Window where
  rpsSpan : Duration
  errorSpan : Duration
  requests : Timeline
  clientErrors : Timeline
  serverErrors : Timeline
  wafHits : Timeline
  /-- When the last event was recorded, or the window was made. -/
  lastSeen : Instant
deriving Repr, DecidableEq

/-- The counts of a window. -/
structure Counts where
  rps : Float
  clientErrors : Nat
  serverErrors : Nat
  wafHits : Nat

namespace Window

/-- A window without events.  No span is shorter than a second. -/
def fresh (rpsSpan errorSpan : Duration) (now : Instant) : Window where
  rpsSpan := max rpsSpan (.ofSeconds 1)
  errorSpan := max errorSpan (.ofSeconds 1)
  requests := []
  clientErrors := []
  serverErrors := []
  wafHits := []
  lastSeen := now

/-- The window after an event. -/
def record (w : Window) (e : Event) (now : Instant) : Window :=
  { w with
    lastSeen := now
    requests := (w.requests.note now true).expire now w.rpsSpan
    clientErrors := (w.clientErrors.note now e.isClientError).expire now w.errorSpan
    serverErrors := (w.serverErrors.note now e.isServerError).expire now w.errorSpan
    wafHits := (w.wafHits.note now e.wafHit).expire now w.errorSpan }

/-- A number of seconds to the millisecond. -/
def secondsOf (d : Duration) : Float :=
  Float.ofInt d.milliseconds / 1000.0

/-- What a number of requests is divided by when the oldest of them has the given age. -/
def divisor (age span : Duration) : Float :=
  let elapsed := secondsOf age
  let limit := secondsOf span
  let held := if limit < elapsed then limit else elapsed
  if held < 1.0 then 1.0 else held

/-- The requests per second. -/
def rps (w : Window) : Float :=
  match w.requests with
  | [] => 0.0
  | oldest :: _ => Float.ofNat w.requests.length / divisor (w.lastSeen - oldest) w.rpsSpan

/-- The counts of the window. -/
def counts (w : Window) : Counts where
  rps := w.rps
  clientErrors := w.clientErrors.length
  serverErrors := w.serverErrors.length
  wafHits := w.wafHits.length

end Window

end TrafficWatch
