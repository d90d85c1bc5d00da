/-!
# Time — Instant

Points in time and lengths of time, both in whole nanoseconds.  An `Instant` counts from the start
of the year 1970.  Clocks are values that the caller supplies, and they may step back.
-/

namespace TrafficWatch

/-- A point in time: nanoseconds since the start of 1970. -/
abbrev Instant := Int

/-- A length of time in nanoseconds. -/
abbrev Duration := Int

namespace Duration

/-- A number of seconds. -/
def ofSeconds (n : Nat) : Duration :=
  (n : Int) * 1000000000

/-- The whole milliseconds of a length of time; what is left over is cut off towards zero. -/
def milliseconds (d : Duration) : Int :=
  Int.tdiv d 1000000

end Duration

/-- The millisecond in which an instant lies. -/
def Instant.millisecond (t : Instant) : Int :=
  Int.fdiv t 1000000

end TrafficWatch
