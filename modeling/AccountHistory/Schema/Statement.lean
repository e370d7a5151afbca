import AccountHistory.Schema.Model

/-!
# Statements of a schema

What has to be done to make, rebuild or drop the tables of models, as a list of statements. A
statement is data: `text` writes it in SQL. The text of a constraint or trigger is that of its
template with the name of the table filled in, which is the only thing that can go wrong here.

* `creation` makes a table with its indexes and triggers, passing over those that are there;
* `rebuild` renames the table, makes it anew, copies columns, drops the old one and makes the
  triggers again. A model of fewer than two columns is not rebuilt.
-/

namespace AccountHistory

/-- A statement about a table of a model. -/
inductive Statement where
  /-- makes a table -/
  | createTable (ifAbsent : Bool) (table : String) (columns : List Column)
      (constraints : List String)
  /-- makes an index unless there is one of its name -/
  | createIndex (table : String) (unique : Bool) (spec : IndexShape)
  /-- renames a table -/
  | rename (table name : String)
  /-- copies columns of all rows from one table to another -/
  | copy (table source : String) (columns : List String)
  /-- drops a table -/
  | drop (ifPresent : Bool) (table : String)
  /-- a statement in the words of its author -/
  | authored (text : String)
  deriving DecidableEq, Repr

namespace Statement

/-- The text of a column in a table definition. -/
def columnText (c : Column) : String :=
  c.name ++ " " ++ c.type.spelling

/-- The text of a statement. -/
def text : Statement → String
  | .createTable ifAbsent table columns constraints =>
    "CREATE TABLE " ++ (if ifAbsent then "IF NOT EXISTS " else "") ++ table ++ " ("
      ++ ", ".intercalate (columns.map columnText ++ constraints) ++ ")"
  | .createIndex table unique spec =>
    "CREATE " ++ (if unique then "UNIQUE INDEX" else "INDEX") ++ " IF NOT EXISTS "
      ++ spec.name table unique ++ " ON " ++ table ++ "(" ++ ", ".intercalate spec.columns ++ ")"
      ++ (match spec.predicate with
        | none => ""
        | some condition => " " ++ condition)
  | .rename table name => "ALTER TABLE " ++ table ++ " RENAME TO " ++ name
  | .copy table source columns =>
    "INSERT INTO " ++ table ++ " (" ++ ", ".intercalate columns ++ ") SELECT "
      ++ ", ".intercalate columns ++ " FROM " ++ source
  | .drop ifPresent table =>
    "DROP TABLE " ++ (if ifPresent then "IF EXISTS " else "") ++ table
  | .authored text => text

end Statement

namespace Model

/-- The texts of templates for a table; the first that cannot be filled in is the answer. -/
def renderAll (table : String) : List Template → Except TemplateError (List String)
  | [] => .ok []
  | t :: rest =>
    match t.renderFor table with
    | .error e => .error e
    | .ok text => (renderAll table rest).map (text :: ·)

/-- The statement that makes the table. -/
def tableStatement (m : Model) (table : String) (ifAbsent : Bool) :
    Except TemplateError Statement :=
  (renderAll table m.constraints).map (.createTable ifAbsent table m.columns)

/-- The statements that make the indexes, plain ones first. -/
def indexStatements (m : Model) (table : String) : List Statement :=
  m.indexes.map (.createIndex table false) ++ m.uniqueIndexes.map (.createIndex table true)

/-- The statements that make the triggers. -/
def triggerStatements (m : Model) (table : String) : Except TemplateError (List Statement) :=
  (renderAll table m.triggers).map (List.map .authored)

/-- The statements that make the table, its indexes and its triggers, where they are absent. -/
def creation (m : Model) (table : String) : Except TemplateError (List Statement) := do
  let made ← m.tableStatement table true
  let triggers ← m.triggerStatements table
  return made :: m.indexStatements table ++ triggers

/-- The name that a table bears while it is rebuilt. -/
def oldName (table : String) : String := table ++ "Old"

/-- The statements that rebuild the table, copying the columns given; none for a model of fewer than
two columns. -/
def rebuildFrom (m : Model) (table : String) (copied : List String) :
    Except TemplateError (List Statement) :=
  if m.columns.length < 2 then .ok []
  else do
    let made ← m.tableStatement table false
    let triggers ← m.triggerStatements table
    return [.rename table (oldName table), made, .copy table (oldName table) copied,
      .drop false (oldName table)] ++ triggers

/-- The statements that rebuild the table, copying all columns. -/
def rebuild (m : Model) (table : String) : Except TemplateError (List Statement) :=
  m.rebuildFrom table m.columnNames

/-- The statements that make the tables of several models, in order. -/
def creationAll : List (String × Model) → Except TemplateError (List Statement)
  | [] => .ok []
  | (table, m) :: rest => do
    let first ← m.creation table
    let others ← creationAll rest
    return first ++ others

end Model

end AccountHistory
