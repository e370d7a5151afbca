import AccountHistory.Sql.Printer
import AccountHistory.Store.Session

/-!
# Archives of databases

A database is kept in a file as the text of the statements that make it: tables, rows, the
identifiers given out, indexes, triggers and the version, in this order, so that no check and no
trigger acts on rows that are only put back. What the tables lead the store to give out on the way
is dropped again. Reading the text means running it on an empty database.
-/

namespace AccountHistory.Store

open Sql

namespace Database

/-- A name under which the row identifier of a table can be given, apart from its columns. -/
def idName? (t : Table) : Option String :=
  if t.keyColumn?.isSome then none else Table.idNames.find? t.isIdName

/-- The statement that puts back a row. -/
def archivedRow (t : Table) (r : Row) : String :=
  match idName? t with
  | some name => rowText t.name (name :: t.columnNames) (.int r.id :: r.values)
  | none => rowText t.name t.columnNames r.values

/-- The statements that put back a table and its rows. -/
def archivedTable (t : Table) : List String :=
  tableText t.name t.columns t.rules :: t.rows.map (archivedRow t)

/-- The statements that make the store keep the identifiers that it gives out: it does so from the
first table on that asks for it. -/
def sequenceStart : List String :=
  [tableText "t" [⟨"x", .integer, false, some .autoincrement, .const .null⟩] [], "DROP TABLE t"]

/-- The statements that put back the identifiers given out. -/
def archivedSequence (entries : List (String × Int)) : List String :=
  ("DELETE FROM " ++ sequenceTable) :: entries.map fun s =>
    rowText sequenceTable sequenceColumns [.text s.1, .int s.2]

/-- The statements that make the database. -/
def archivedStatements (db : Database) : List String :=
  db.sequence.elim [] (fun _ => sequenceStart) ++ db.tables.flatMap archivedTable
    ++ db.sequence.elim [] archivedSequence
    ++ db.indexes.map (fun i => indexText i.unique i.name i.table i.columns i.predicate)
    ++ db.triggers.map Trigger.text ++ ["PRAGMA user_version = " ++ toString db.version]

/-- The text of the archive. -/
def archive (db : Database) : String :=
  String.join (db.archivedStatements.map fun s => s ++ ";\n")

/-- The database of an archive; `none` if the text is no archive. A value may hold any character, so
the text is read token by token. -/
def ofArchive? (text : String) : Option Database :=
  let s : Session := { Session.start empty 0 with foreignKeys := false }
  match s.runScript false (Script.ofTokens (Token.ofText text)) with
  | (s', none) => some s'.database
  | (_, some _) => none

end Database

end AccountHistory.Store
