import Std.Async.Signal
import Std.Time.DateTime.Timestamp
import TrafficWatch.CommandLine.Help
import TrafficWatch.Engine
import TrafficWatch.Log.Line
import TrafficWatch.Setup.Sample
import TrafficWatch.Setup.Sources

/-!
# Main

The program.  It does what the command line asks for: it reads the configuration, lets an engine work
on what it is given, tells what is drained from the ledger, and ends when it is interrupted.  Nothing is
decided here; this is where clocks, files and variables are read and where lines and files are written.
-/

namespace TrafficWatch.World

open Setup (Format Layer)

/-! ### Reading -/

/-- The present. -/
def now : IO Instant := do
  return (← Std.Time.Timestamp.now).toNanosecondsSinceUnixEpoch.val

/-- The text of a file, if there is such a file. -/
def text? (name : String) : IO (Option String) := do
  try
    return some (← IO.FS.readFile name)
  catch _ =>
    return none

/-- How many processors the machine has, as far as it says so. -/
def processors : IO Nat := do
  let lines := ((← text? "/proc/cpuinfo").getD "").splitOn "\n"
  return lines.countP (·.startsWith "processor")

/-- All variables of the environment. -/
def environment : IO (List (String × String)) := do
  let assignments := ((← text? "/proc/self/environ").getD "").splitOn "\x00"
  return assignments.filterMap fun a =>
    match a.splitOn "=" with
    | name :: value@(_ :: _) => some (name, "=".intercalate value)
    | _ => none

/-- The layers of the configuration in files: the file that is named, or those in the usual places. -/
def fileLayers : Option String → IO (Except Failure (List Layer))
  | some name => return Setup.namedLayers name (← text? name)
  | none => do
    let names := Setup.usualPlaces.flatMap fun place =>
      place :: Format.all.map (place ++ ·.ending)
    let found ← names.filterMapM fun name => do
      return (← text? name).map (name, ·)
    return Setup.usualLayers fun name => found.lookup name

/-- What stands at a path, if anything does. -/
def entry? (name : String) : IO (Option FileEntry) := do
  try
    return some (.file (← IO.FS.readBinFile name))
  catch
    | .noFileOrDirectory .. => return none
    | _ => return some .directory

/-- What stands at the paths of a model. -/
def archive : Option ModelPaths → IO Archive
  | none => return ⟨none, .empty⟩
  | some paths => do
    let files ← [paths.model, paths.threshold, paths.marker].foldlM (fun t name => do
      match ← entry? name with
      | some e => return t.withEntry (.parse name) e
      | none => return t) FileTree.empty
    return ⟨some paths, files⟩

/-! ### Writing -/

/-- Something is told where the log is kept. -/
def tell (plan : LogPlan) (severity : Severity) (message : String) : IO Unit := do
  if plan.tells severity then
    let t ← now
    let line := plan.line severity t message
    if plan.showsConsole then IO.eprintln line
    if plan.toFile then
      IO.FS.createDirAll plan.directory
      let file ← IO.FS.Handle.mk (plan.fileName t) .append
      file.putStrLn line

/-- A file takes the place of what stands at a path. -/
def replaceFile (name : String) (bytes : ByteArray) : IO Unit := do
  let directory := "/".intercalate (name.splitOn "/").dropLast
  if !directory.isEmpty then IO.FS.createDirAll directory
  IO.FS.writeBinFile (name ++ ".tmp") bytes
  IO.FS.rename (name ++ ".tmp") name

/-- A path becomes what it is in a tree. -/
def follow (before after : FileTree) (name : String) : IO Unit :=
  let p := Path.parse name
  match before.read? p, after.read? p with
  | none, none => return
  | some _, none => IO.FS.removeFile name
  | some old, some new => if old == new then return else replaceFile name new
  | none, some new => replaceFile name new

/-- The files become those of an archive.  When the model changes, the threshold that was made for
the old one goes first. -/
def followArchive (before after : Archive) : IO Unit := do
  match after.paths with
  | none => return
  | some paths =>
    let model := Path.parse paths.model
    let stays := before.files.read? model == after.files.read? model
    let cleared := (before.files.perform? (.remove (.parse paths.threshold))).getD before.files
    let files := if stays then before.files else cleared
    if !stays then follow before.files files paths.threshold
    [paths.model, paths.threshold, paths.marker].forM (follow files after.files)

/-! ### Watching -/

/-- An engine at work, and when it has to do something else than judge events. -/
structure Watch where
  plan : LogPlan
  engine : Engine
  /-- Milliseconds between two drains of the ledger. -/
  drainEvery : Nat
  nextDrain : Nat
  /-- Milliseconds between two trainings. -/
  cycleEvery : Nat
  nextCycle : Nat

namespace Watch

/-- The engine does what it has to do now. -/
def turn (w : Watch) : IO Watch := do
  let before := w.engine.pipeline.archive
  let clock ← IO.monoMsNow
  let engine := w.engine.settle (← now)
  let t ← now
  let cycles := w.nextCycle ≤ clock
  let engine := if cycles then (engine.nextCycle t).2 else engine
  let drains := w.nextDrain ≤ clock
  let (lines, engine) := if drains then engine.drainReport else ([], engine)
  lines.forM (tell w.plan .info)
  try followArchive before engine.pipeline.archive
  catch e => tell w.plan .warning s!"Failed to persist the model: {e}"
  return { w with
    engine
    nextCycle := if cycles then clock + w.cycleEvery else w.nextCycle
    nextDrain := if drains then clock + w.drainEvery else w.nextDrain }

/-- The engine works until there is an interruption. -/
partial def untilInterrupted (interrupted : BaseIO Bool) (w : Watch) : IO Watch := do
  if ← interrupted then return w
  let w ← w.turn
  IO.sleep 100
  w.untilInterrupted interrupted

end Watch

/-- The program at work with a configuration. -/
def work (line : CommandLine) (setup : Setup) : IO UInt32 := do
  let plan := (LogPlan.ofSettings setup.log).change { level := line.logLevel }
  tell plan .info s!"Starting {CommandLine.versionLine}"
  let settings := setup.detection
  let started ← now
  match Engine.start ⟨settings, .inOrder⟩ (← archive settings.paths) started with
  | .error f =>
    IO.eprintln s!"Error: Failed to start detection engine\n\nCaused by:\n    {f.text}"
    return 1
  | .ok engine =>
    let engine ← match line.replay with
      | none => pure engine
      | some name => do
        let (replay, engine) := engine.replay (← IO.FS.readFile name).toList started
        replay.skipped.forM fun n => tell plan .warning (Replay.skipLine n)
        tell plan .info s!"Replaying {replay.events.length} feature events from {name}"
        pure engine
    let interruption ← (← Std.Async.Signal.Waiter.mk .sigint false).wait
    let clock ← IO.monoMsNow
    let cycleEvery := settings.seconds .retrainInterval * 1000
    let w ← Watch.untilInterrupted (IO.hasFinished interruption)
      ⟨plan, engine, max line.drainInterval 1 * 1000, clock, cycleEvery, clock + cycleEvery⟩
    tell plan .info s!"Shutdown complete ({w.engine.processed} events processed)"
    return 0

/-- What the arguments ask for is done. -/
def run (arguments : List String) : IO UInt32 := do
  match CommandLine.ofArguments arguments with
  | .error refusal =>
    let out ← if refusal.isAnswer then IO.getStdout else IO.getStderr
    refusal.lines.forM out.putStrLn
    return if refusal.isAnswer then 0 else 2
  | .ok line =>
    if line.printsSample then
      IO.print (Setup.sampleText (← processors))
      return 0
    let environment ← environment
    let config := line.config <|> environment.lookup "AEGIS_CONFIG_FILE"
    match Setup.load (← processors) (← fileLayers config) environment with
    | .error f =>
      IO.eprintln s!"Error: Failed to load configuration\n\nCaused by:\n    {f.text}"
      return 1
    | .ok setup => work line setup

end TrafficWatch.World

/-- The program. -/
def main (arguments : List String) : IO UInt32 :=
  TrafficWatch.World.run arguments
