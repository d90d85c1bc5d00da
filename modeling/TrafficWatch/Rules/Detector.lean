import TrafficWatch.Rules.WindowStore
import TrafficWatch.Settings.Basic
import TrafficWatch.Verdict

/-!
# Rules — Detector

The detector that compares the counts of a window with fixed thresholds.  Each event is recorded in
the window of its client and route, and the first threshold that is passed gives the reason
(`Settings.judge`).  From time to time, on the way, windows that have been idle for too long are swept
out; two sweeps are always further apart than the settings demand.
-/

namespace TrafficWatch

/-- The verdict on an event whose window has the given counts: rate, client errors, server errors,
hits of the firewall and entropy are looked at in this order. -/
def Settings.judge (s : Settings) (e : Event) (c : Counts) : Verdict :=
  if s.rpsThreshold < c.rps then .anomaly .rpsSpike
  else if s.clientErrorThreshold < c.clientErrors then .anomaly .clientErrorSpike
  else if s.serverErrorThreshold < c.serverErrors then .anomaly .serverErrorSpike
  else if s.wafThreshold < c.wafHits then .anomaly .wafSpike
  else if e.agentEntropy < s.agentEntropyThreshold then .anomaly .lowAgentEntropy
  else .normal

/-- The rules, with the windows of all clients. -/
structure RuleDetector where
  settings : Settings
  windows : WindowStore
  /-- The millisecond of the last sweep, or of the start. -/
  lastSweep : Int

namespace RuleDetector

/-- Rules that have seen nothing yet. -/
def start (s : Settings) (now : Instant) : RuleDetector :=
  ⟨s, .empty, now.millisecond⟩

/-- A window without events for these settings. -/
def freshWindow (d : RuleDetector) (now : Instant) : Window :=
  .fresh (d.settings.duration .rpsWindow) (d.settings.duration .errorWindow) now

/-- Dropping the windows that have been idle for too long. -/
def evictIdle (d : RuleDetector) (now : Instant) : Nat × RuleDetector :=
  let (count, windows) := d.windows.evictIdle now (d.settings.duration .windowTtl) fun _ => false
  (count, { d with windows })

/-- Whether the last sweep is long enough ago for another one. -/
def isSweepDue (d : RuleDetector) (now : Instant) : Bool :=
  decide ((d.settings.duration .pruneInterval).milliseconds < now.millisecond - d.lastSweep)

/-- A sweep if one is due. -/
def sweep (d : RuleDetector) (now : Instant) : RuleDetector :=
  if d.isSweepDue now then { (d.evictIdle now).2 with lastSweep := now.millisecond } else d

/-- The verdict on an event, and the rules after it. -/
def observe (d : RuleDetector) (e : Event) (now : Instant) : Verdict × RuleDetector :=
  let d := d.sweep now
  let (counts, windows) := d.windows.record e.windowKey e now (d.freshWindow now)
  (d.settings.judge e counts, { d with windows })

end RuleDetector

end TrafficWatch
