import AccountHistory.Cli.Request
import AccountHistory.Collection.Standard
import AccountHistory.Migration.Blueprint
import AccountHistory.Settings.File
import AccountHistory.Store.Location
import AccountHistory.Sync.Checkpoints

/-!
# Running requests

What the program does, as a function of what it is given: the words of the command line, the
environment, the moment, and a `Site` that reads files and keeps databases. The site may be that of
the operating system or any other one.
-/

namespace AccountHistory.Cli

open Store

/-! ## Outcomes -/

/-- What a run leaves to its caller. -/
structure Outcome where
  /-- the exit code -/
  code : Nat
  /-- the lines written -/
  lines : List String
  /-- what went wrong -/
  complaint : Option String
  deriving DecidableEq, Repr

namespace Outcome

/-- A run that went well. -/
def done (lines : List String) : Outcome := ⟨0, lines, none⟩

/-- A run that failed after writing lines. -/
def failed (lines : List String) (message : String) : Outcome :=
  ⟨1, lines, some ("Error: " ++ message)⟩

/-- A run without a request. -/
def ofNoRequest : NoRequest → Outcome
  | .misused => ⟨2, [], some ("Usage: " ++ programName ++ " [OPTIONS] <COMMAND>")⟩
  | .help command => done (helpText command)
  | .version => done [versionText]

end Outcome

/-! ## The world outside -/

/-- What is found where a database is looked for. -/
inductive Opening where
  /-- a database -/
  | found (db : Database)
  /-- nothing, but one may be kept there -/
  | absent
  /-- nothing, nor can anything be kept there -/
  | impossible
  /-- something else -/
  | foreign
  deriving DecidableEq, Repr

/-- What a run needs of the world outside. -/
structure Site (m : Type → Type) where
  /-- the environment -/
  environment : Environment
  /-- the moment, in milliseconds since 1970 -/
  clock : Int
  /-- the text of a file, if it can be read -/
  readText : String → m (Option String)
  /-- a directory of migrations -/
  readDirectory : String → m MigrationDirectory
  /-- what is found where a path leads to -/
  openFile : String → m Opening
  /-- keeps a database where a path leads to -/
  keepFile : String → Database → m Unit

/-! ## Collections -/

/-- A text with blanks behind it, up to a width. -/
def padded (width : Nat) (s : String) : String :=
  s ++ String.ofList (List.replicate (width - s.length) ' ')

/-- The configured start of a collection. -/
def startOf (settings : Settings) (c : Collection) : Option Int :=
  c.startKey.bind settings.configuredStart?

/-- The line about a collection. -/
def collectionLine (settings : Settings) (limits : RateLimits) (c : Collection) : String :=
  padded 22 c.name ++ " " ++ padded 22 c.method ++ " limit=" ++ padded 5 (toString c.pageLimit)
    ++ " calls=" ++ (limits.ceiling c.method).shown ++ " start="
    ++ ((startOf settings c).map toString).getD "-"

/-- The list of collections. -/
def listCollections (settings : Settings) (environment : Environment) (isShared : Bool) : Outcome :=
  match settings.rateLimits environment with
  | .error e => .failed [] e.context
  | .ok limits =>
    .done ((Catalog.standard.ofSharing isShared).map (collectionLine settings limits))

/-! ## Checkpoints -/

/-- What to fetch next, as it is written. -/
def windowText (w : Option FetchWindow) : String :=
  Text.optional (w.map FetchWindow.shown)

/-- The line about a checkpoint. -/
def checkpointLine (start : Option Int) (now : Int) (e : TrackedRange) : String :=
  e.symbol ++ " " ++ e.timeframe.getD "-" ++ " " ++ e.range.shown ++ " next="
    ++ windowText (FetchWindow.plan (some e.range) start now)

/-- The checkpoints of a collection. -/
def listCheckpoints (settings : Settings) (c : Collection) (user : Option (Int × Option Int))
    (s : Session) : Outcome :=
  let owner : CheckpointOwner :=
    match user with
    | none => .everybody
    | some (id, sub) => .user id sub
  let start := startOf settings c
  match Checkpoints.load s.database owner c.name with
  | .error e => .failed [] e.message
  | .ok [] =>
    .done ["no checkpoints; next window " ++ windowText (FetchWindow.plan none start s.clock)]
  | .ok entries => .done ((c.withEntries entries).tracked.map (checkpointLine start s.clock))

/-! ## Tables -/

/-- The line about a migration. -/
def migrationLine (r : MigrationSummary) : String :=
  "schema version " ++ toString r.fromVersion ++ " -> " ++ toString r.toVersion ++ " ("
    ++ toString r.applied.length ++ " migration(s) applied"
    ++ (if r.created then ", schema created" else "") ++ ")"

/-- Makes or upgrades the tables. -/
def migrate (directory : Option MigrationDirectory) (s : Session) : Outcome × Session :=
  match Blueprint.standard.migrate directory s with
  | (s', .ok report) => (.done [migrationLine report], s')
  | (s', .error e) => (.failed [] e.message, s')

/-- Compares the tables with their models. -/
def validate (s : Session) : Outcome :=
  let mismatches := Blueprint.standard.validate s.database
  let lines := mismatches.map Mismatch.message
  if mismatches.isEmpty then .done ["schema ok"]
  else .failed lines (toString mismatches.length ++ " schema mismatch(es)")

/-- Makes a table anew. -/
def rebuild (table : String) (s : Session) : Outcome × Session :=
  match Blueprint.standard.model? table with
  | none => (.failed [] ("unknown table " ++ table), s)
  | some m =>
    match Blueprint.rebuildTable table m s with
    | (s', .error e) => (.failed [] e.message, s')
    | (s', .ok count) => (.done [table ++ ": " ++ toString count ++ " statement(s)"], s')

/-- Drops all tables. -/
def dropAll (ifExists : Bool) (s : Session) : Outcome × Session :=
  match Blueprint.dropAllTables ifExists s with
  | (s', .error e) => (.failed [] e.message, s')
  | (s', .ok count) => (.done ["dropped " ++ toString count ++ " table(s)"], s')

/-! ## Runs -/

section

variable {m : Type → Type} [Monad m]

/-- The complaint about something that is no database. -/
def foreignFile : String := "file is not a database"

/-- The database at a location, or the complaint that there is none. -/
def openAt (site : Site m) (path : String) : Option Location → m (Except String Database)
  | none => return .error (Location.openFailure path)
  | some .transient => return .ok .empty
  | some (.file file mustExist) => do
    match ← site.openFile file with
    | .found db => return .ok db
    | .absent => return if mustExist then .error (Location.openFailure path) else .ok .empty
    | .impossible => return .error (Location.openFailure path)
    | .foreign => return .error foreignFile

/-- Keeps the database at a location. -/
def keepAt (site : Site m) (db : Database) : Option Location → m Unit
  | some (.file file _) => site.keepFile file db
  | _ => return

/-- Runs what needs a database, and keeps the database that comes of it. -/
def withDatabase (site : Site m) (settings : Settings) (act : Session → Outcome × Session) :
    m Outcome := do
  match settings.database site.environment with
  | .error e => return .failed [] e.context
  | .ok url =>
    let location := Location.ofUrl? url
    match ← openAt site (Location.pathOf url) location with
    | .error complaint => return .failed [] complaint
    | .ok db =>
      let (outcome, s) := act (.start db site.clock)
      keepAt site s.database location
      return outcome

/-- Runs a command under its settings. -/
def runCommand (site : Site m) (settings : Settings) : Command → m Outcome
  | .migrate directory => do
    let directory ← (directory.or settings.migrationsDir).mapM site.readDirectory
    withDatabase site settings (migrate directory)
  | .validate => withDatabase site settings fun s => (validate s, s)
  | .rebuild table => withDatabase site settings (rebuild table)
  | .dropAll ifExists => withDatabase site settings (dropAll ifExists)
  | .collections isShared => return listCollections settings site.environment isShared
  | .checkpoints collection user =>
    match Catalog.standard.get? collection with
    | none => return .failed [] ("unknown collection " ++ collection)
    | some c => withDatabase site settings fun s => (listCheckpoints settings c user s, s)

/-- Runs the program on the words of a command line. -/
def run (site : Site m) (words : List String) : m Outcome := do
  match request words with
  | .error e => return .ofNoRequest e
  | .ok request =>
    match request.config with
    | none => runCommand site .empty request.command
    | some path =>
      match Settings.loadFile path (← site.readText path) with
      | .error e => return .failed [] e.context
      | .ok settings => runCommand site settings request.command

end

end AccountHistory.Cli
