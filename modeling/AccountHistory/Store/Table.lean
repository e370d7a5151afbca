import AccountHistory.Sql.Command

/-!
# Tables

A table holds rows in the order of their identifiers. Names of tables and columns are compared
without regard to the case of ASCII letters, as `Text.sameFold` does.

* `Table.operand?` looks a column up in a row, with the affinity under which it is compared;
* `Table.scope` and `Table.known` are the surroundings of a condition on a row.
-/

namespace AccountHistory.Store

open Sql

/-- A row of a table. -/
structure Row where
  /-- the row identifier -/
  id : Int
  /-- one value for each column, in the order of the columns -/
  values : List Value
  deriving DecidableEq, Repr

/-- A table. -/
structure Table where
  /-- its name -/
  name : String
  /-- its columns, in order -/
  columns : List ColumnDef
  /-- what it promises of its rows -/
  rules : List TableRule
  /-- its rows, in the order of their identifiers -/
  rows : List Row
  deriving DecidableEq, Repr

namespace Table

/-- The place of a column. -/
def columnIndex? (t : Table) (name : String) : Option Nat :=
  t.columns.findIdx? fun c => Text.sameFold c.name name

/-- The table has a column of that name. -/
def hasColumn (t : Table) (name : String) : Bool :=
  t.columns.any fun c => Text.sameFold c.name name

/-- The names of the columns, in order. -/
def columnNames (t : Table) : List String :=
  t.columns.map ColumnDef.name

/-- The column that identifies rows. -/
def keyColumn? (t : Table) : Option ColumnDef :=
  t.columns.find? fun c => c.key.isSome

/-- The name is that of the column that identifies rows. -/
def isKeyName (t : Table) (name : String) : Bool :=
  t.columns.any fun c => c.key.isSome && Text.sameFold c.name name

/-- Identifiers of the table are never given twice. -/
def isAutoincrement (t : Table) : Bool :=
  t.columns.any fun c => c.key == some .autoincrement

/-- The value of a column in a row. -/
def value? (t : Table) (r : Row) (name : String) : Option Value :=
  (t.columnIndex? name).map fun i => r.values.getD i .null

/-- The names under which the row identifier is known where no column has them. -/
def idNames : List String := ["rowid", "_rowid_", "oid"]

/-- The name is one of the row identifier. -/
def isIdName (t : Table) (name : String) : Bool :=
  !t.hasColumn name && idNames.contains (Text.fold name)

/-- The value of a column in a row, or the row identifier, with the affinity of the column. -/
def operand? (t : Table) (r : Row) (name : String) : Option Operand :=
  match t.columnIndex? name with
  | some i => some ⟨r.values.getD i .null, (t.columns[i]?).map ColumnDef.affinity⟩
  | none => if t.isIdName name then some ⟨.int r.id, some .integer⟩ else none

/-- The value of a column in a row that a change leaves or finds: of such a row only the identifier
has an affinity. -/
def changedOperand? (t : Table) (r : Row) (name : String) : Option Operand :=
  (t.operand? r name).map fun o =>
    ⟨o.value, if t.isIdName name || t.isKeyName name then some .integer else none⟩

/-- The values of columns in a row; a column that is not there has none. -/
def valuesAt (t : Table) (r : Row) (names : List String) : List Value :=
  names.map fun n => (t.value? r n).getD .null

/-- The first of the names that is no column. -/
def missing? (t : Table) (names : List String) : Option String :=
  names.find? fun n => !t.hasColumn n

/-- The first of the names that is neither a column nor the row identifier. -/
def unsettable? (t : Table) (names : List String) : Option String :=
  names.find? fun n => !t.hasColumn n && !t.isIdName n

/-- The columns that rows are given for: those named, or all. -/
def columnsGiven (t : Table) (columns : Option (List String)) : List String :=
  columns.getD t.columnNames

/-- The references of the table. -/
def foreignKeys (t : Table) : List ForeignKey :=
  t.rules.filterMap fun
    | .foreignKey f => some f
    | _ => none

/-- The conditions of the table. -/
def checks (t : Table) : List Expr :=
  t.rules.filterMap fun
    | .check e => some e
    | _ => none

/-- The lists have the same names at the same places. -/
def sameNames (names names' : List String) : Bool :=
  names.map Text.fold == names'.map Text.fold

/-- The table has a rule that passes rows over. -/
def isLenient (t : Table) : Bool :=
  t.rules.any TableRule.isLenient

/-- Rows that agree with others on these columns are passed over. -/
def isLenientOn (t : Table) (columns : List String) : Bool :=
  t.rules.any fun
    | .unique names lenient => lenient && sameNames names columns
    | _ => false

/-- The row of an identifier. -/
def row? (t : Table) (id : Int) : Option Row :=
  t.rows.find? fun r => r.id == id

/-- The rows of all other identifiers. -/
def rowsBut (t : Table) (id : Int) : List Row :=
  t.rows.filter fun r => r.id != id

/-- The columns that are meant where a reference names none: the column that identifies rows, or
those of a promise to do so. -/
def mainColumns (t : Table) : List String :=
  match t.keyColumn? with
  | some c => [c.name]
  | none =>
    (t.rules.findSome? fun
      | .primary columns => some columns
      | _ => none).getD []

/-- The greatest row identifier. -/
def lastId? (t : Table) : Option Int :=
  (t.rows.getLast?).map Row.id

/-- Puts a row at the place of its identifier; a row of that identifier gives way. -/
def putRow (r : Row) : List Row → List Row
  | [] => [r]
  | s :: rest =>
    if r.id < s.id then r :: s :: rest
    else if r.id = s.id then r :: rest
    else s :: putRow r rest

/-- The row at hand goes by this name: by none, or by that of the table. -/
def answersTo (t : Table) : RowName → Bool
  | .current => true
  | .named name => Text.sameFold name t.name

/-- The columns that a condition on a row may use. -/
def known (t : Table) : Columns := fun row name =>
  t.answersTo row && (t.hasColumn name || t.isIdName name)

/-- The scope of a condition on a row. -/
def scope (t : Table) (clock : Int) (r : Row) : Scope :=
  ⟨fun row name => if t.answersTo row then t.operand? r name else none, clock⟩

end Table

end AccountHistory.Store
