import TrafficWatch.Json.Value
import TrafficWatch.Log.Settings
import TrafficWatch.Time.Calendar

/-!
# Log — Line

What the log that is kept lets through, how a line of it looks, and in which file it stands.
-/

namespace TrafficWatch

/-- How serious what is told is. -/
inductive Severity where
  | info
  | warning
deriving Repr, DecidableEq

/-- The word for a severity. -/
def Severity.word : Severity → String
  | info => "INFO"
  | warning => "WARN"

/-- The name of the file of the log, to which rotation adds a time. -/
def logFileName : String := "aegis-gateway.log"

/-- How many characters of an instant stand in the name of a file: those of its day, with the hour if a
new file is begun every hour. -/
def Rotation.stampLength : Rotation → Nat
  | .daily => 10
  | .hourly => 13
  | .never => 0

namespace LogPlan

/-- The levels at which something of the given severity is not told. -/
def silentLevels : Severity → List String
  | .info => ["off", "error", "warn"]
  | .warning => ["off", "error"]

/-- Whether something of the given severity is told. -/
def tells (p : LogPlan) (s : Severity) : Bool :=
  !(silentLevels s).contains (Setup.Reading.lowered p.level)

/-- The line about something that is told. -/
def line (p : LogPlan) (s : Severity) (now : Instant) (message : String) : String :=
  if p.asJson then
    String.ofList (Json.Value.compact (.object [
      ("timestamp", .text now.inLog), ("level", .text s.word), ("message", .text message)]))
  else s!"{now.inLog} {s.word} {message}"

/-- Whether lines go to the console, which they do when they go nowhere else. -/
def showsConsole (p : LogPlan) : Bool :=
  p.toConsole || !p.toFile

/-- The file in which a line stands. -/
def fileName (p : LogPlan) (now : Instant) : String :=
  let stamp := (now.text "-" "" fractionText).toList.take p.rotation.stampLength
  p.directory ++ "/" ++ logFileName ++ (if stamp.isEmpty then "" else "." ++ String.ofList stamp)

end LogPlan

end TrafficWatch
