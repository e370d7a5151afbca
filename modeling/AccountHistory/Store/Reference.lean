import AccountHistory.Store.Database

/-!
# References between tables

A reference from the columns of one table to those of another is kept if each row of the first that
refers to anything refers to a row of the second. Values are compared as the column referred to
would store them.

* `orphanCount` is the number of broken references, and `settle` refuses a statement that leaves
  more of them behind than it found;
* `refersTo` tells the rows that a change of a row of their parent concerns.
-/

namespace AccountHistory.Store

open Sql

namespace Database

/-! ## Keys -/

/-- The columns that a reference refers to in its parent. -/
def parentColumns (f : ForeignKey) (parent : Table) : List String :=
  if f.parentColumns.isEmpty then parent.mainColumns else f.parentColumns

/-- The columns identify rows of the table: they are the row identifier or carry a unique index
over all rows. -/
def identifies (db : Database) (t : Table) (columns : List String) : Bool :=
  match columns, t.keyColumn? with
  | [c], some key => Text.sameFold key.name c || hasUnique [c]
  | [], _ => false
  | cs, _ => hasUnique cs
where
  /-- a unique index over all rows holds the same columns -/
  hasUnique (cs : List String) : Bool :=
    (db.indexesOf t.name).any fun i =>
      i.unique && i.predicate.isNone && i.columns.length == cs.length
        && cs.all fun c => i.columns.any (Text.sameFold c)

/-- The reference leads to columns of its parent that identify rows, as many as it has itself. -/
def leads (db : Database) (f : ForeignKey) (parent : Table) : Bool :=
  let columns := parentColumns f parent
  columns.length == f.columns.length && db.identifies parent columns

/-- A reference whose parent is missing or is not identified by the columns referred to. -/
def referenceFault? (db : Database) (child : String) (f : ForeignKey) : Option Refusal :=
  match db.table? f.parent with
  | none => some (.noSuchTable f.parent)
  | some parent =>
    if db.leads f parent then none
    else some (.keyMismatch child f.parent)

/-- A table that refers to `t` by columns that do not identify its rows. -/
def unidentified? (db : Database) (t : Table) : Option Table :=
  db.tables.find? fun child =>
    child.foreignKeys.any fun f =>
      Text.sameFold f.parent t.name && !db.leads f t

/-- Some table refers to this one. -/
def isReferred (db : Database) (table : String) : Bool :=
  db.tables.any fun t => t.foreignKeys.any fun f => Text.sameFold f.parent table

/-! ## Broken references -/

/-- The values are those of the columns in the row, once stored there. -/
def isAt (t : Table) (columns : List String) (key : List Value) (r : Row) : Bool :=
  (key.zip columns).all fun (v, name) =>
    match t.operand? r name with
    | some ⟨w, affinity⟩ => ((affinity.getD .blob).store v).same w
    | none => false

/-- The row refers to a row that is not there; a reference with a missing value refers to none. -/
def isOrphan (db : Database) (t : Table) (f : ForeignKey) (r : Row) : Bool :=
  let key := t.valuesAt r f.columns
  if key.contains .null then false
  else
    match db.table? f.parent with
    | none => true
    | some parent => !parent.rows.any (isAt parent (parentColumns f parent) key)

/-- The number of broken references. -/
def orphanCount (db : Database) : Nat :=
  db.tables.foldl (fun count t =>
    t.foreignKeys.foldl (fun count f => count + t.rows.countP (db.isOrphan t f)) count) 0

/-- Refuses a statement that leaves more broken references than there were in `before`. -/
def settle (before after : Database) : Except Fault Database :=
  if before.orphanCount < after.orphanCount then .error .foreignKey else .ok after

/-- The number of broken references, unless one refers to columns that do not identify rows. -/
def checkReferences (db : Database) : Except Fault Nat :=
  match db.tables.findSome? fun t => (db.unidentified? t).map fun child => (child, t) with
  | some (child, t) => .error (.refused (.keyMismatch child.name t.name))
  | none => .ok db.orphanCount

/-! ## Rows that go together -/

/-- The row of the child refers to the row `gone` of the parent. -/
def refersTo (child parent : Table) (f : ForeignKey) (gone r : Row) : Bool :=
  (f.columns.zip (parentColumns f parent)).all fun (c, k) =>
    match parent.changedOperand? gone k, child.operand? r c with
    | some a, some b => a.value != .null && b.value != .null && a.same b
    | _, _ => false

/-- The references to a table, with their tables: the latest comes first. -/
def referencesTo (db : Database) (table : String) : List (Table × ForeignKey) :=
  (db.tables.flatMap fun t => t.foreignKeys.map fun f => (t, f)).reverse.filter fun (_, f) =>
    Text.sameFold f.parent table

end Database

end AccountHistory.Store
