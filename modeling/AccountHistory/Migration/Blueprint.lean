import AccountHistory.Migration.File
import AccountHistory.Schema.Difference
import AccountHistory.Schema.Obedience
import AccountHistory.Schema.Tables

/-!
# Bringing databases to a version

A blueprint holds the models of all tables and the version that they make up. A database of any
earlier version is led to that one:

* an empty database gets all tables at once;
* any other runs the migrations above its version, in order, all those of one version in one
  transaction which also writes the version, and gets what is still missing at the end.

Single tables are rebuilt in the shape of their models, and all tables are dropped. What fails
leaves behind no half-done step: only whole versions stay.
-/

namespace AccountHistory

open Store

/-! ## Errors and reports -/

/-- Why a database is not brought to its version. -/
inductive MigrationError where
  /-- the database is ahead -/
  | downgrade (stored supported : Nat)
  /-- the directory of migrations cannot be read -/
  | unreadableDirectory (path : String)
  /-- a migration cannot be read -/
  | unreadable (name : String)
  /-- a migration fails -/
  | statement (name : String) (fault : Fault)
  /-- there is no table to rebuild -/
  | missingTable (table : String)
  /-- references are broken after a rebuild -/
  | brokenReferences (table : String) (count : Nat)
  /-- a template of a model cannot be filled in -/
  | template (error : TemplateError)
  /-- any other statement fails -/
  | store (fault : Fault)
  deriving DecidableEq, Repr

/-- The wording of an error. -/
def MigrationError.message : MigrationError → String
  | .downgrade stored supported =>
    "database schema version " ++ toString stored ++ " is newer than supported version "
      ++ toString supported
  | .unreadableDirectory path => "cannot read migrations directory " ++ path
  | .unreadable name => "cannot read migration file " ++ name
  | .statement name _ => "migration " ++ name ++ " failed"
  | .missingTable table => "table " ++ table ++ " does not exist"
  | .brokenReferences table count =>
    "rebuild of " ++ table ++ " left " ++ toString count ++ " foreign key violation(s)"
  | .template error => error.message
  | .store fault => fault.message

/-- What was done to bring a database to its version. -/
structure MigrationSummary where
  /-- the version it had -/
  fromVersion : Nat
  /-- the version it has -/
  toVersion : Nat
  /-- it was empty -/
  created : Bool
  /-- the names of the migrations that ran, in order -/
  applied : List String
  deriving DecidableEq, Repr

/-! ## Directories -/

/-- A directory of migrations. -/
structure MigrationDirectory where
  /-- where it is -/
  path : String
  /-- its entries, each with its text as far as that can be read; `none` if the directory cannot be
  read -/
  entries : Option (List (DirectoryEntry × Option String))
  deriving DecidableEq, Repr

namespace MigrationDirectory

/-- The text of a migration, if it can be read. -/
def text? (d : MigrationDirectory) (m : Migration) : Option String :=
  ((d.entries.getD []).find? fun e => e.1.name == m.name).bind Prod.snd

end MigrationDirectory

/-! ## Blueprints -/

/-- The tables of a version. -/
structure Blueprint where
  /-- the tables with their models, in the order of their making -/
  models : List (String × Model)
  /-- the version -/
  version : Nat
  deriving DecidableEq, Repr

/-- What a text does to a session. -/
abbrev Effect := String → Session → Except Fault Session

namespace Blueprint

/-- The blueprint of this library. -/
def standard : Blueprint := ⟨Tables.models, Tables.currentVersion⟩

/-- The model of a table. -/
def model? (b : Blueprint) (table : String) : Option Model :=
  (b.models.find? fun t => t.1 == table).map Prod.snd

/-- The kind of the migrations that can be run. -/
def runnableKind : String := "sql"

/-- The migration leads beyond the stored version, not beyond that of the blueprint, and can be run.
-/
def isPending (b : Blueprint) (stored : Nat) (migration : Migration) : Bool :=
  stored < migration.version && migration.version ≤ b.version && migration.kind == runnableKind

/-- The migrations to be run, in order. -/
def pending (b : Blueprint) (stored : Nat) (directory : Option MigrationDirectory) :
    Except MigrationError (List Migration) :=
  match directory with
  | none => .ok []
  | some d =>
    match d.entries with
    | none => .error (.unreadableDirectory d.path)
    | some entries =>
      .ok ((Migration.inOrder (entries.map Prod.fst)).filter (b.isPending stored))

/-- Migrations in groups of one version. -/
def groups (migrations : List Migration) : List (List Migration) :=
  migrations.splitBy fun a b => a.version == b.version

/-- The text of a migration. -/
def textOf (directory : Option MigrationDirectory) (migration : Migration) :
    Except MigrationError String :=
  match directory.bind fun d => d.text? migration with
  | some text => .ok text
  | none => .error (.unreadable migration.name)

/-- Runs one migration. -/
def runOne (effect : Effect) (directory : Option MigrationDirectory) (migration : Migration)
    (s : Session) : Except MigrationError Session :=
  match textOf directory migration with
  | .error e => .error e
  | .ok text => (effect text s).mapError (.statement migration.name)

/-- Runs migrations one after the other. -/
def runEach (effect : Effect) (directory : Option MigrationDirectory) :
    List Migration → Session → Except MigrationError Session
  | [], s => .ok s
  | migration :: rest, s =>
    match runOne effect directory migration s with
    | .error e => .error e
    | .ok s' => runEach effect directory rest s'

/-- The session with the version written. -/
def stamp (version : Nat) (s : Session) : Session :=
  s.withDatabase (s.database.setVersion version)

/-- Runs the migrations of one version and writes the version: all of it, or nothing. -/
def runGroup (effect : Effect) (directory : Option MigrationDirectory) (group : List Migration)
    (s : Session) : Except MigrationError Session :=
  match group with
  | [] => .ok s
  | first :: _ => (runEach effect directory group s).map (stamp first.version)

/-- Runs groups up to the first that fails: the session reached, the names of the migrations that
ran, and what failed. -/
def runGroups (effect : Effect) (directory : Option MigrationDirectory) (applied : List String) :
    List (List Migration) → Session → Session × List String × Option MigrationError
  | [], s => (s, applied, none)
  | group :: rest, s =>
    match runGroup effect directory group s with
    | .error e => (s, applied, some e)
    | .ok s' => runGroups effect directory (applied ++ group.map Migration.name) rest s'

/-- Makes what is missing of the tables, indexes and triggers, where statements do what is given,
without writing the version: all of it, or nothing. The number of statements. -/
def createMissingBy (run : Statement.Runner) (models : List (String × Model)) (s : Session) :
    Except MigrationError (Session × Nat) :=
  match Model.creationAll models with
  | .error e => .error (.template e)
  | .ok statements =>
    match Statement.runAllBy run s statements with
    | .error e => .error (.store e)
    | .ok s' => .ok (s', statements.length)

/-- Makes what is missing of the tables, indexes and triggers, without writing the version. -/
def createMissing (models : List (String × Model)) (s : Session) :
    Except MigrationError (Session × Nat) :=
  createMissingBy Statement.runInside models s

/-- Makes what is missing, where statements do what is given, and writes the version of the
blueprint. -/
def completeBy (run : Statement.Runner) (b : Blueprint) (s : Session) :
    Except MigrationError Session :=
  (createMissingBy run b.models s).map fun (s', _) => stamp b.version s'

/-- Makes what is missing and writes the version of the blueprint. -/
def complete (b : Blueprint) (s : Session) : Except MigrationError Session :=
  b.completeBy Statement.runInside s

/-- Brings a database to the version of the blueprint, where the statements for its models do what
is given and the texts of migrations have the effect given. The session is the one reached, also if
something fails. -/
def migrateWith (run : Statement.Runner) (effect : Effect) (b : Blueprint)
    (directory : Option MigrationDirectory) (s : Session) :
    Session × Except MigrationError MigrationSummary :=
  let stored := s.database.storedVersion
  if b.version < stored then (s, .error (.downgrade stored b.version))
  else if stored = 0 ∧ s.database.sortedTables = [] then
    match b.completeBy run s with
    | .error e => (s, .error e)
    | .ok s' => (s', .ok ⟨stored, b.version, true, []⟩)
  else
    match b.pending stored directory with
    | .error e => (s, .error e)
    | .ok migrations =>
      match runGroups effect directory [] (groups migrations) s with
      | (s', _, some e) => (s', .error e)
      | (s', applied, none) =>
        if stored < b.version then
          match b.completeBy run s' with
          | .error e => (s', .error e)
          | .ok s'' => (s'', .ok ⟨stored, b.version, false, applied⟩)
        else (s', .ok ⟨stored, stored, false, applied⟩)

/-- Brings a database to the version of the blueprint, where the texts of migrations have the effect
given. -/
def migrateBy (effect : Effect) (b : Blueprint) (directory : Option MigrationDirectory)
    (s : Session) : Session × Except MigrationError MigrationSummary :=
  b.migrateWith Statement.runInside effect directory s

/-- Brings a database to the version of the blueprint. -/
def migrate (b : Blueprint) (directory : Option MigrationDirectory) (s : Session) :
    Session × Except MigrationError MigrationSummary :=
  migrateBy (fun text s => s.runInside text) b directory s

/-! ## Rebuilding -/

/-- The session in which tables are rebuilt: references are not checked, and those of other tables
stay with the name. -/
def forRebuild (s : Session) : Session :=
  { s with foreignKeys := false, legacyRename := true }

/-- The session behind a rebuild: references are checked again if they were before it. -/
def afterRebuild (checked : Bool) (s : Session) : Session :=
  { s with foreignKeys := s.foreignKeys || checked, legacyRename := false }

/-- A step as a transaction: where it fails, all is as it was. -/
def transact (step : Session → Except MigrationError Session) (s : Session) :
    Session × Except MigrationError Unit :=
  match step s with
  | .error e => (s, .error e)
  | .ok s' => (s', .ok ())

/-- Runs statements of a rebuild and checks all references at the end. -/
def runRebuild (run : Statement.Runner) (table : String) (statements : List Statement)
    (s : Session) : Except MigrationError Session :=
  match Statement.runAllBy run s statements with
  | .error e => .error (.store e)
  | .ok s' =>
    match s'.database.checkReferences with
    | .error e => .error (.store e)
    | .ok 0 => .ok s'
    | .ok count => .error (.brokenReferences table count)

/-- Rebuilds a table in the shape of a model, keeping its rows, where statements do what is given.
The session behind it, and the number of statements. -/
def rebuildTableBy (run : Statement.Runner) (table : String) (m : Model) (s : Session) :
    Session × Except MigrationError Nat :=
  match s.database.columnsOf table with
  | [] => (s, .error (.missingTable table))
  | live =>
    match m.rebuildFrom table (m.columnNames.filter fun c => live.contains c) with
    | .error e => (s, .error (.template e))
    | .ok [] => (s, .ok 0)
    | .ok plan =>
      let statements := plan ++ m.indexStatements table
      let (s', result) := transact (runRebuild run table statements) (forRebuild s)
      (afterRebuild s.foreignKeys s', result.map fun _ => statements.length)

/-- Rebuilds a table in the shape of a model, keeping its rows. -/
def rebuildTable (table : String) (m : Model) (s : Session) : Session × Except MigrationError Nat :=
  rebuildTableBy Statement.runInside table m s

/-- Rebuilds a table: the session and the number of statements, if it does not fail. -/
def rebuild (table : String) (m : Model) (s : Session) : Except MigrationError (Session × Nat) :=
  match rebuildTable table m s with
  | (_, .error e) => .error e
  | (s', .ok count) => .ok (s', count)

/-! ## Dropping -/

/-- The statements that drop tables. -/
def dropStatements (ifPresent : Bool) (tables : List String) : List Statement :=
  tables.map (.drop ifPresent)

/-- Runs the statements that drop tables and writes the version zero. -/
def runDrops (ifPresent : Bool) (tables : List String) (s : Session) :
    Except MigrationError Session :=
  match Statement.runAll s (dropStatements ifPresent tables) with
  | .error e => .error (.store e)
  | .ok s' => .ok (stamp 0 s')

/-- Drops all tables, without checking references, and writes the version zero. The session behind
it, and the number of tables. -/
def dropAllTables (ifPresent : Bool) (s : Session) : Session × Except MigrationError Nat :=
  let tables := s.database.sortedTables
  let (s', result) := transact (runDrops ifPresent tables) { s with foreignKeys := false }
  ({ s' with foreignKeys := s'.foreignKeys || s.foreignKeys }, result.map fun _ => tables.length)

/-- Drops all tables: the session and the number of tables, if it does not fail. -/
def dropAll (ifPresent : Bool) (s : Session) : Except MigrationError (Session × Nat) :=
  match dropAllTables ifPresent s with
  | (_, .error e) => .error e
  | (s', .ok count) => .ok (s', count)

/-! ## Comparing -/

/-- The differences between a database and the models of the blueprint. -/
def validate (b : Blueprint) (db : Database) : List Mismatch :=
  db.mismatches b.models

end Blueprint

end AccountHistory
