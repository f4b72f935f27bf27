import TaskIndex.Run
import Std.Time.Format

/-!
The program on a real machine: it reads the words, the environment, the clock and the files, and leaves
everything else to `Run`.
-/

namespace TaskIndex.Main

/-- The variables of the environment that matter, as they are spelled there. -/
def variableNames : List String := [
  CommandLine.configFileVariable,
  "TRACKER_CACHE__LOGGING__LEVEL",
  "TRACKER_CACHE__LOGGING__JSON",
  "TRACKER_CACHE__CACHE__DEFAULT_PAGE_LENGTH",
  "TRACKER_CACHE__CACHE__MAX_PAGE_LENGTH",
  "TRACKER_CACHE__SNAPSHOT__PATH"]

def readEnvironment : IO Environment := do
  let values ← variableNames.mapM fun name => do
    return (← IO.getEnv name).map fun value => (name, value)
  return values.filterMap id

/-- The contents of a file, if it can be read. -/
def readFile? (path : String) : IO (Option String) := do
  try
    return some (← IO.FS.readFile path)
  catch _ => return none

def readFiles (paths : List String) : IO (List (String × String)) := do
  let contents ← paths.mapM fun path => do
    return (← readFile? path).map fun content => (path, content)
  return contents.filterMap id

/-- The number of the first of January 1970. -/
def epoch : Int := 719468

/-- The day it is in the time zone of Greenwich. -/
def readDay : IO Date := do
  let now ← Std.Time.Timestamp.now
  let days := now.toDaysSinceUnixEpoch.toInt
  return Date.first.addDays (epoch + days - Date.first.number)

/-- Reads what a command line needs, and runs it. -/
def run (words : List String) : IO Run := do
  let environment ← readEnvironment
  let today ← readDay
  match Arguments.parse environment words with
  | .error stop => return Run.ofStop environment stop
  | .ok a =>
    let settingsFiles ← readFiles (Settings.fileNames a.configFile)
    match Run.readSettings (settingsFiles.lookup ·) environment a with
    | .error f => return Run.ofResult (.error f)
    | .ok settings =>
      let snapshot ← readFiles [settings.snapshotPath]
      return Run.ofResult <| do
        Run.execute settings (← Run.readSnapshot (snapshot.lookup ·) settings.snapshotPath) today
          a.command

end TaskIndex.Main

def main (words : List String) : IO UInt32 := do
  let run ← TaskIndex.Main.run words
  IO.print run.output
  for complaint in run.complaint do
    IO.eprintln complaint
  return run.exitCode.toUInt32
