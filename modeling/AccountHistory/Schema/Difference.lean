import AccountHistory.Schema.Model
import AccountHistory.Store.Database

/-!
# Differences between models and tables

A database agrees with models if every model has its table and the two have the same columns, in any
order. `mismatches` names every difference once: the models in turn, for each the columns it misses
in their order, then the columns it does not know, sorted.
-/

namespace AccountHistory

open Store

/-- One difference between a model and its table. -/
inductive Mismatch where
  /-- there is no such table -/
  | missingTable (table : String)
  /-- the table has no such column -/
  | missingColumn (table column : String)
  /-- the model has no such column -/
  | unexpectedColumn (table column : String)
  deriving DecidableEq, Repr

/-- The wording of a difference. -/
def Mismatch.message : Mismatch → String
  | .missingTable table => "missing table " ++ table
  | .missingColumn table column => "missing column " ++ table ++ "." ++ column
  | .unexpectedColumn table column => "unexpected column " ++ table ++ "." ++ column

namespace Store.Database

/-- The names of the columns of a table, sorted, each once. -/
def columnSet (db : Database) (table : String) : List String :=
  ((db.columnsOf table).mergeSort (· ≤ ·)).eraseDups

/-- The differences between one model and its table. -/
def mismatchesOf (db : Database) (table : String) (m : Model) : List Mismatch :=
  if !db.sortedTables.contains table then [.missingTable table]
  else
    let live := db.columnSet table
    (m.columnNames.filter fun c => !live.contains c).map (.missingColumn table)
      ++ (live.filter fun c => !m.hasColumn c).map (.unexpectedColumn table)

/-- The differences between models and their tables. -/
def mismatches (db : Database) (models : List (String × Model)) : List Mismatch :=
  models.flatMap fun t => db.mismatchesOf t.1 t.2

end Store.Database

end AccountHistory
