import AccountHistory.Sql.Expr

/-!
# Commands

The statements that a store obeys, as data. Definitions of tables, indexes and triggers are kept by
the store; the other commands change rows or settings. Names are compared without regard to the case
of ASCII letters.
-/

namespace AccountHistory.Sql

/-! ## Definitions -/

/-- How a column identifies rows. -/
inductive RowKey where
  /-- the column is the row identifier -/
  | plain
  /-- the column is the row identifier and an identifier is never given twice -/
  | autoincrement
  deriving DecidableEq, Repr

/-- A column as a store keeps it. -/
structure ColumnDef where
  /-- its name -/
  name : String
  /-- the values it prefers -/
  affinity : Affinity
  /-- it always has a value -/
  notNull : Bool
  /-- it identifies rows -/
  key : Option RowKey
  /-- the value it has where none is given -/
  fallback : Expr
  deriving DecidableEq, Repr

/-- What happens to a row when the row it refers to goes or gets other values. -/
inductive ReferenceAction where
  /-- nothing: a reference that is broken at the end of the statement refuses it -/
  | refuse
  /-- as long as it refers to the other row, that row stays as it is -/
  | forbid
  /-- the row goes too, or takes over the values -/
  | cascade
  /-- the reference is dropped -/
  | setNull
  /-- the reference is that of a row for which none is given -/
  | setDefault
  deriving DecidableEq, Repr

/-- A reference from columns of one table to columns of another. -/
structure ForeignKey where
  /-- the referring columns -/
  columns : List String
  /-- the table referred to -/
  parent : String
  /-- the columns referred to; empty for the row identifier -/
  parentColumns : List String
  /-- what happens when the row referred to goes -/
  onDelete : ReferenceAction
  /-- what happens when the row referred to gets other values -/
  onUpdate : ReferenceAction
  deriving DecidableEq, Repr

/-- What a table promises of its rows. -/
inductive TableRule where
  /-- a condition that no row refutes -/
  | check (e : Expr)
  /-- a reference -/
  | foreignKey (f : ForeignKey)
  /-- no two rows agree on all these columns: a row that would is refused, or passed over -/
  | unique (columns : List String) (lenient : Bool)
  /-- no two rows agree on these either, and references that name no columns mean them -/
  | primary (columns : List String)
  deriving DecidableEq, Repr

namespace TableRule

/-- The rule is a reference. -/
def isForeignKey : TableRule → Bool
  | .foreignKey _ => true
  | _ => false

/-- The rule is that no two rows agree. -/
def isUnique : TableRule → Bool
  | .unique _ _ => true
  | _ => false

/-- Rows that break the rule are passed over. -/
def isLenient : TableRule → Bool
  | .unique _ lenient => lenient
  | _ => false

/-- The rule is the one of its kind that a table has at most. -/
def isPrimary : TableRule → Bool
  | .primary _ => true
  | _ => false

end TableRule

/-- The changes that a trigger waits for. -/
inductive Event where
  /-- a row comes -/
  | insert
  /-- a row changes -/
  | update
  /-- a row goes -/
  | delete
  deriving DecidableEq, Repr

/-- What a trigger does. -/
inductive Action where
  /-- assigns expressions to columns of the rows that a condition picks -/
  | update (table : String) (assignments : List (String × Expr)) (condition : Option Expr)
  /-- adds rows, given in the order of the columns named, or of all columns -/
  | insert (table : String) (columns : Option (List String)) (rows : List (List Expr))
  /-- removes the rows that a condition picks -/
  | delete (table : String) (condition : Option Expr)
  /-- reads expressions, to no effect -/
  | select (es : List Expr)
  deriving DecidableEq, Repr

/-- A trigger: what to do after a change of a table. -/
structure Trigger where
  /-- its name -/
  name : String
  /-- the table it watches -/
  table : String
  /-- the change it waits for -/
  event : Event
  /-- it acts only on changes that satisfy this -/
  guard : Option Expr
  /-- what it does -/
  actions : List Action
  deriving DecidableEq, Repr

/-! ## Commands -/

/-- A statement that a store obeys. -/
inductive Command where
  /-- makes a table -/
  | createTable (ifAbsent : Bool) (name : String) (columns : List ColumnDef)
      (rules : List TableRule)
  /-- makes an index -/
  | createIndex (ifAbsent unique : Bool) (name table : String) (columns : List String)
      (predicate : Option Expr)
  /-- makes a trigger -/
  | createTrigger (ifAbsent : Bool) (trigger : Trigger)
  /-- drops a table -/
  | dropTable (ifPresent : Bool) (name : String)
  /-- adds a column to a table, with what is promised of it -/
  | addColumn (table : String) (column : ColumnDef) (rules : List TableRule)
  /-- renames a table -/
  | renameTable (table name : String)
  /-- adds rows, given in the order of the columns named, or of all columns -/
  | insert (table : String) (columns : Option (List String)) (rows : List (List Expr))
  /-- adds a row for each row of another table -/
  | insertFrom (table : String) (columns : Option (List String)) (source : String)
      (row : List Expr)
  /-- removes the rows that a condition picks -/
  | delete (table : String) (condition : Option Expr)
  /-- sets the version -/
  | setVersion (n : Int)
  /-- turns the check of references on or off -/
  | setForeignKeys (on : Bool)
  /-- whether renaming a table leaves references behind -/
  | setLegacyRename (on : Bool)
  /-- how long to wait for others, in milliseconds -/
  | setBusyTimeout (n : Int)
  /-- reads expressions without a table -/
  | select (es : List Expr)
  /-- a setting of no concern here -/
  | nothing
  deriving DecidableEq, Repr

end AccountHistory.Sql
