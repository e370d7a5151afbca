import AccountHistory.Sql.Reader.Script
import AccountHistory.Store.Objects

/-!
# Sessions

A session is a database with the settings of one user of it: whether references are checked, whether
renaming a table leaves references behind, how long to wait for others. It obeys commands one at a
time and scripts as far as they go; a transaction runs steps of which all take effect or none.
-/

namespace AccountHistory.Store

open Sql

/-- A database and the settings under which it is used. -/
structure Session where
  /-- the database -/
  database : Database
  /-- references are checked -/
  foreignKeys : Bool
  /-- renaming a table leaves the references of others behind -/
  legacyRename : Bool
  /-- how long to wait for other users, in milliseconds -/
  busyTimeout : Nat
  /-- the moment, in milliseconds since 1970 -/
  clock : Int
  deriving DecidableEq, Repr

namespace Session

/-- A session on a database with the settings of this library: references are checked, and others
are waited for five seconds. -/
def start (db : Database) (clock : Int) : Session :=
  ⟨db, true, false, 5000, clock⟩

/-- The session with another database. -/
def withDatabase (s : Session) (db : Database) : Session :=
  { s with database := db }

/-- The terms on which a statement runs. -/
def terms (s : Session) : Terms :=
  ⟨s.clock, s.foreignKeys, true⟩

/-- The columns that rows are given for: those named, or all of the table. -/
def columnsGiven (db : Database) (table : String) (columns : Option (List String)) : List String :=
  (db.table? table).elim (columns.getD []) fun t => t.columnsGiven columns

/-- The refusal of expressions that use a column where there is no row. -/
def rowless (es : List Expr) : Except Fault Unit :=
  match es.findSome? (unknownIn? fun _ _ => false) with
  | some reason => .error (.refused reason)
  | none => .ok ()

/-- Adds rows. The identifiers given out are added to like a table. -/
def addRows (s : Session) (many : Bool) (table : String) (columns : Option (List String))
    (rows : List (List Value)) : Except Fault Session :=
  let db := s.database
  if db.isSequence table then
    (db.insertGiven (columns.getD Database.sequenceColumns) rows).map s.withDatabase
  else
    (db.insert s.terms many table (columnsGiven db table columns) rows).map s.withDatabase

/-- Obeys a command. Inside a transaction, the check of references is not turned on or off. -/
def obey (s : Session) (inTransaction : Bool) (c : Command) : Except Fault Session :=
  let db := s.database
  match c with
  | .createTable ifAbsent name columns rules =>
    (db.createTable ifAbsent name columns rules).map s.withDatabase
  | .createIndex ifAbsent unique name table columns predicate =>
    (db.createIndex s.clock ifAbsent ⟨name, table, unique, columns, predicate⟩).map s.withDatabase
  | .createTrigger ifAbsent trigger => (db.createTrigger ifAbsent trigger).map s.withDatabase
  | .dropTable ifPresent name =>
    (db.dropTable s.terms ifPresent name).map s.withDatabase
  | .addColumn table column rules =>
    (db.addColumn s.terms table column rules).map s.withDatabase
  | .renameTable table name =>
    (db.renameTable s.legacyRename (!s.legacyRename || s.foreignKeys) table name).map s.withDatabase
  | .insert table columns rows => do
    rowless rows.flatten
    s.addRows (1 < rows.length) table columns
      (rows.map fun es => es.map (Expr.eval (.bare s.clock)))
  | .insertFrom table columns source row => do
    let rows ← db.select s.clock source row
    if row.length ≠ (columnsGiven db table columns).length then throw (.refused .wrongCount)
    s.addRows true table columns rows
  | .delete table condition =>
    if db.isSequence table then
      (db.deleteGiven s.clock condition).map s.withDatabase
    else (db.delete s.terms table condition).map s.withDatabase
  | .setVersion n => .ok (s.withDatabase (db.setVersion n))
  | .setForeignKeys on => .ok (if inTransaction then s else { s with foreignKeys := on })
  | .setLegacyRename on => .ok { s with legacyRename := on }
  | .setBusyTimeout n => .ok { s with busyTimeout := n.toNat }
  | .select es => (rowless es).map fun _ => s
  | .nothing => .ok s

/-- Obeys commands up to the first that fails. -/
def obeyAll (inTransaction : Bool) (s : Session) : List Command → Session × Option Fault
  | [] => (s, none)
  | c :: rest =>
    match s.obey inTransaction c with
    | .error e => (s, some e)
    | .ok s' => obeyAll inTransaction s' rest

/-- Obeys a script up to the first statement that fails or cannot be read. -/
def runScript (s : Session) (inTransaction : Bool) (script : Script) : Session × Option Fault :=
  match s.obeyAll inTransaction script.commands with
  | (s', some e) => (s', some e)
  | (s', none) => (s', if script.isBroken then some (.refused .malformed) else none)

/-- Runs the statements of a text; those before the first that fails stay. -/
def run (s : Session) (text : String) : Session × Option Fault :=
  s.runScript false (Script.ofText text)

/-- Runs the statements of a text inside a transaction. -/
def runInside (s : Session) (text : String) : Except Fault Session :=
  match s.runScript true (Script.ofText text) with
  | (_, some e) => .error e
  | (s', none) => .ok s'

/-- The name by which rows are put in order. -/
def orderName : String := "rowid"

/-- The values of expressions in each row of a table, both given as texts, in the order of the row
identifiers. -/
def ask (s : Session) (expressions table : String) : Except Fault (List (List Value)) :=
  match questionOfTexts? expressions table with
  | none => .error (.refused .malformed)
  | some (es, name) =>
    let key (row : List Value) : Value := row.headD .null
    (s.database.select s.clock name (.column .current orderName :: es)).map fun rows =>
      (rows.mergeSort fun a b => (key a).compare (key b) != .gt).map List.tail

end Session

end AccountHistory.Store
