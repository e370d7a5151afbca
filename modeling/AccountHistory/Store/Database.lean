import AccountHistory.Store.Fault
import AccountHistory.Store.Table

/-!
# Databases

A database is a value: tables with their rows, indexes, triggers, the last identifier given out for
each table that never gives one twice, and a version. A statement takes a database to another one or
fails, so a failed transaction is undone by going back to the value before it.

* names of tables, indexes and triggers are compared without regard to the case of ASCII letters;
* the identifiers given out and the catalogue of all objects can be read as tables of their own,
  whose names no other tables have. What else a store may keep for itself, as statistics on tables
  or a count of the changes of its objects, is left out, and no statement is read that looks at it;
* `sortedTables` is the list by which the library tells whether a database is empty.
-/

namespace AccountHistory.Store

open Sql

/-- An index. -/
structure Index where
  /-- its name -/
  name : String
  /-- the table it belongs to -/
  table : String
  /-- no two of its rows agree on all its columns -/
  unique : Bool
  /-- its columns -/
  columns : List String
  /-- the rows it covers; all without a condition -/
  predicate : Option Expr
  deriving DecidableEq, Repr

/-- A database. -/
structure Database where
  /-- tables, in the order of their making -/
  tables : List Table
  /-- indexes -/
  indexes : List Index
  /-- triggers -/
  triggers : List Trigger
  /-- the last identifier given out, by the name of the table; `none` as long as no table asked for
  it -/
  sequence : Option (List (String × Int))
  /-- the slot of the version, a signed number of 32 bits -/
  version : Int
  deriving DecidableEq, Repr

namespace Database

/-- Nothing stored. -/
def empty : Database := ⟨[], [], [], none, 0⟩

/-- The table of a name. -/
def table? (db : Database) (name : String) : Option Table :=
  db.tables.find? fun t => Text.sameFold t.name name

/-- The index of a name. -/
def index? (db : Database) (name : String) : Option Index :=
  db.indexes.find? fun i => Text.sameFold i.name name

/-- The trigger of a name. -/
def trigger? (db : Database) (name : String) : Option Trigger :=
  db.triggers.find? fun t => Text.sameFold t.name name

/-- The table of a name, or the refusal of its absence. -/
def getTable (db : Database) (name : String) : Except Fault Table :=
  match db.table? name with
  | some t => .ok t
  | none => .error (.refused (.noSuchTable name))

/-- The database with the rows of a table replaced. -/
def withRows (db : Database) (name : String) (rows : List Row) : Database :=
  { db with
    tables := db.tables.map fun t =>
      if Text.sameFold t.name name then { t with rows := rows } else t }

/-- The indexes that keep the promises of a table to have no two rows that agree, one for each list
of columns. They have no name. -/
def ownIndexes (t : Table) : List Index :=
  let indexes : List Index := t.rules.filterMap fun
    | .unique columns _ | .primary columns => some ⟨"", t.name, true, columns, none⟩
    | .check _ | .foreignKey _ => none
  indexes.eraseDupsBy fun i j => Table.sameNames i.columns j.columns

/-- The indexes of a table. -/
def indexesOf (db : Database) (table : String) : List Index :=
  (db.table? table).elim [] ownIndexes
    ++ db.indexes.filter fun i => Text.sameFold i.table table

/-! ## Identifiers given out -/

/-- The entries of a sequence with the identifier in the first one of a name, or behind all if there
is none of that name. -/
def noted (table : String) (id : Int) : List (String × Int) → List (String × Int)
  | [] => [(table, id)]
  | (name, last) :: rest =>
    if name = table then (name, id) :: rest else (name, last) :: noted table id rest

/-- The last identifier given out for a table; zero before the first. -/
def lastGiven (db : Database) (table : String) : Int :=
  ((db.sequence.getD []).lookup table).getD 0

/-- Notes that an identifier is given out for a table, unless a greater one was. -/
def give (db : Database) (table : String) (id : Int) : Database :=
  { db with
    sequence := some (noted table (max id (db.lastGiven table)) (db.sequence.getD [])) }

/-- The name of the table as which the identifiers given out are read. -/
def sequenceTable : String := "sqlite_sequence"

/-- The identifiers given out as a table. -/
def sequenceAsTable? (db : Database) : Option Table :=
  db.sequence.map fun entries =>
    ⟨sequenceTable, ["name", "seq"].map fun c => ⟨c, .blob, false, none, .const .null⟩, [],
      entries.mapIdx fun i s => ⟨i + 1, [.text s.1, .int s.2]⟩⟩

/-- The identifiers given out go by this name. -/
def isSequence (db : Database) (name : String) : Bool :=
  Text.sameFold name sequenceTable && db.sequence.isSome

/-! ## The catalogue -/

/-- An object in the catalogue. -/
structure CatalogueEntry where
  /-- what it is -/
  kind : String
  /-- its name -/
  name : String
  /-- the table it belongs to -/
  table : String

/-- The names under which the catalogue is read. -/
def catalogueNames : List String := ["sqlite_master", "sqlite_schema"]

/-- The objects of a table: the table itself, the indexes that keep its own promises, the
identifiers given out if it is the first to ask for them, its other indexes and its triggers. -/
def objectsOf (db : Database) (t : Table) : List CatalogueEntry :=
  let isFirst := ((db.tables.find? Table.isAutoincrement).map Table.name) == some t.name
  [⟨"table", t.name, t.name⟩]
    ++ (ownIndexes t).mapIdx (fun i _ =>
      ⟨"index", "sqlite_autoindex_" ++ t.name ++ "_" ++ toString (i + 1), t.name⟩)
    ++ (if isFirst then [⟨"table", sequenceTable, sequenceTable⟩] else [])
    ++ (db.indexes.filter fun i => Text.sameFold i.table t.name).map (⟨"index", ·.name, t.name⟩)
    ++ (db.triggers.filter fun g => Text.sameFold g.table t.name).map (⟨"trigger", ·.name, t.name⟩)

/-- The objects of the database, table by table. -/
def objectsInOrder (db : Database) : List CatalogueEntry :=
  (if db.sequence.isSome && !db.tables.any Table.isAutoincrement then
    [⟨"table", sequenceTable, sequenceTable⟩] else [])
    ++ db.tables.flatMap db.objectsOf

/-- The catalogue as a table. The texts by which objects were made are not kept. -/
def catalogue (db : Database) : Table :=
  let isStored (e : CatalogueEntry) : Bool := e.kind != "trigger"
  let page (before : List CatalogueEntry) (e : CatalogueEntry) : Int :=
    if isStored e then before.countP isStored + 2 else 0
  { name := "sqlite_master"
    columns := [("type", .text), ("name", .text), ("tbl_name", .text), ("rootpage", .integer),
      ("sql", .text)].map fun c => ⟨c.1, c.2, false, none, .const .null⟩
    rules := []
    rows := db.objectsInOrder.mapIdx fun i e =>
      ⟨i + 1, [.text e.kind, .text e.name, .text e.table,
        .int (page (db.objectsInOrder.take i) e), .null]⟩ }

/-- The table of a name as far as it can be read. -/
def readable? (db : Database) (name : String) : Option Table :=
  if Text.sameFold name sequenceTable then db.sequenceAsTable?
  else if catalogueNames.any (Text.sameFold name) then some db.catalogue
  else db.table? name

/-! ## Existing tables -/

/-- The pattern of the names that the store keeps for itself. -/
def internalPattern : List Char := ['s', 'q', 'l', 'i', 't', 'e', '_', '%']

/-- The names of the tables that do not match the pattern of internal names. -/
def listedTables (db : Database) : List String :=
  (db.tables.map Table.name).filter fun n => !Text.isLike internalPattern n.toList

/-- The names of the listed tables, sorted, each once. -/
def sortedTables (db : Database) : List String :=
  (db.listedTables.mergeSort (· ≤ ·)).eraseDups

/-- The names of the columns of a table, in order; none if there is no such table. -/
def columnsOf (db : Database) (table : String) : List String :=
  match db.readable? table with
  | some t => t.columnNames
  | none => []

/-! ## Version -/

/-- The stored version: a negative number in the slot counts as zero. -/
def storedVersion (db : Database) : Nat :=
  db.version.toNat

/-- Writes a number into the slot of the version; one that does not fit it is written as zero. -/
def setVersion (db : Database) (n : Int) : Database :=
  { db with version := if -2147483648 ≤ n ∧ n ≤ 2147483647 then n else 0 }

end Database

end AccountHistory.Store
