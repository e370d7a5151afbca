import AccountHistory.Sql.Command

/-!
# Failing statements

Why a statement fails: a promise about rows is broken, or the statement cannot be obeyed at all. The
first kind is told apart by the promise, the second by what stands in the way.
-/

namespace AccountHistory.Store

/-- Why a statement cannot be obeyed at all. -/
inductive Refusal where
  /-- the text is no statement -/
  | malformed
  /-- there is no table of that name -/
  | noSuchTable (name : String)
  /-- there is no column of that name -/
  | noSuchColumn (name : String)
  /-- a table, index, trigger or column has the name already -/
  | nameTaken (name : String)
  /-- the name is kept for the store -/
  | reservedName (name : String)
  /-- rows and columns differ in number -/
  | wrongCount
  /-- a row identifier that is no whole number -/
  | badIdentifier
  /-- a reference to columns that do not identify rows -/
  | keyMismatch (child parent : String)
  /-- a column that must have a value cannot be added to rows -/
  | needsValue (column : String)
  /-- a column that identifies rows cannot be added -/
  | lateKey (column : String)
  /-- rows refute a condition on a column that is added -/
  | lateCheck (column : String)
  /-- all identifiers are given out -/
  | noMoreIds (table : String)
  /-- a value that must be there to be read is missing -/
  | noValue (column : String)
  /-- the table is one that the store keeps for itself -/
  | internalTable (name : String)
  /-- a row is referred to that may not go or change as long as it is -/
  | referred (table : String)
  /-- changes set off changes without end -/
  | tooDeep
  /-- a column whose rows agree nowhere cannot be added -/
  | lateUnique (column : String)
  deriving DecidableEq, Repr

/-- Why a statement fails. -/
inductive Fault where
  /-- two rows agree where none may -/
  | unique
  /-- a row refers to a row that is not there -/
  | foreignKey
  /-- a value is missing -/
  | notNull
  /-- a row refutes a condition -/
  | check
  /-- the statement cannot be obeyed at all -/
  | refused (reason : Refusal)
  deriving DecidableEq, Repr

/-- The wording of a refusal. -/
def Refusal.message : Refusal → String
  | .malformed => "syntax error"
  | .noSuchTable name => "no such table: " ++ name
  | .noSuchColumn name => "no such column: " ++ name
  | .nameTaken name => name ++ " already exists"
  | .reservedName name => "object name reserved for internal use: " ++ name
  | .wrongCount => "values and columns differ in number"
  | .badIdentifier => "datatype mismatch"
  | .keyMismatch child parent =>
    "foreign key mismatch - " ++ child ++ " referencing " ++ parent
  | .needsValue column => "cannot add a column that needs a value: " ++ column
  | .lateKey column => "cannot add a primary key column: " ++ column
  | .lateCheck column => "existing rows refute the condition on the column: " ++ column
  | .noMoreIds table => "no row identifier is left: " ++ table
  | .noValue column => "no value in column " ++ column
  | .internalTable name => "table " ++ name ++ " may not be changed"
  | .referred _ => "FOREIGN KEY constraint failed"
  | .tooDeep => "too many levels of trigger recursion"
  | .lateUnique column => "cannot add a unique column: " ++ column

/-- The wording of a fault. -/
def Fault.message : Fault → String
  | .unique => "UNIQUE constraint failed"
  | .foreignKey => "FOREIGN KEY constraint failed"
  | .notNull => "NOT NULL constraint failed"
  | .check => "CHECK constraint failed"
  | .refused reason => reason.message

end AccountHistory.Store
