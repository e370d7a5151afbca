import AccountHistory.Cli.Run
import AccountHistory.Store.Archive
import Std.Time.DateTime.Timestamp

/-!
# The program

The command line on a real machine. Nothing is decided here: a `Cli.Site` is made of the
environment, the clock and the file system, `Cli.run` runs the words of the command line on it, and
its outcome is written. Databases lie in files as archives.
-/

namespace AccountHistory.Machine

open Store

/-- What an action gives; nothing if it fails. -/
def attempt {α : Type} (act : IO α) : IO (Option α) := do
  try return some (← act) catch _ => return none

/-- The variables of the environment that the program knows. -/
def environment : IO Environment := do
  let known := [Settings.databaseUrlVariable, Settings.periodVariable]
  let found ← known.mapM fun name => return (name, ← IO.getEnv name)
  return ⟨found.filterMap fun v => v.2.map fun value => (v.1, value)⟩

/-- The moment, in milliseconds since 1970. -/
def moment : IO Int :=
  return (← Std.Time.Timestamp.now).toMillisecondsSinceUnixEpoch.val

/-- The text of a file, if it can be read. -/
def readText (path : String) : IO (Option String) :=
  attempt (IO.FS.readFile path)

/-- The entries of a directory, each with its text if it is a file that can be read. -/
def readEntries (path : String) : IO (List (DirectoryEntry × Option String)) := do
  let entries ← (← IO.FS.realPath path).readDir
  entries.toList.mapM fun e => do
    let isFile := (← e.path.symlinkMetadata).type == .file
    let text ← if isFile then readText e.path.toString else pure none
    return (⟨e.fileName, some e.path.toString, isFile⟩, text)

/-- A directory of migrations. -/
def readDirectory (path : String) : IO MigrationDirectory :=
  return ⟨path, ← attempt (readEntries path)⟩

/-- What is found where a path leads to. -/
def openFile (path : String) : IO Cli.Opening := do
  let isThere (path : String) : IO Bool :=
    return (← attempt (IO.FS.realPath path)).isSome
  match ← readText path with
  | some text => return (Database.ofArchive? text).elim .foreign .found
  | none =>
    let behind := path.toList.reverse.dropWhile (· ≠ '/')
    let directory := if behind.isEmpty then "." else String.ofList behind.reverse
    if ← isThere path then return .impossible
    else if ← isThere directory then return .absent
    else return .impossible

/-- Keeps a database where a path leads to. -/
def keepFile (path : String) (db : Database) : IO Unit :=
  IO.FS.writeFile path db.archive

/-- The machine as a site. -/
def site : IO (Cli.Site IO) :=
  return ⟨← environment, ← moment, readText, readDirectory, openFile, keepFile⟩

end AccountHistory.Machine

/-- Runs the words of the command line and gives the exit code. -/
def main (words : List String) : IO UInt32 := do
  let outcome ← AccountHistory.Cli.run (← AccountHistory.Machine.site) words
  outcome.lines.forM IO.println
  outcome.complaint.forM IO.eprintln
  return outcome.code.toUInt32
