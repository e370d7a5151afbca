import AccountHistory.Schema.Index
import AccountHistory.Schema.SqlType
import AccountHistory.Schema.Template

/-!
# Table models

A model says what a table looks like: its columns in order, its constraints and triggers as
templates, its indexes. It is made from a `Draft`, the same things as they are written, by checks
that run in a fixed order; the first complaint is the answer.

* columns: names are trimmed, neither empty nor repeated, and there is at least one;
* the row identifier and the two timestamps are added on request, unless declared;
* at most one column generates row identifiers;
* templates are well formed, indexes name columns of the model, and no two indexes of one list would
  share a name.
-/

namespace AccountHistory

open Text

/-! ## Models -/

/-- A column of a table. -/
structure Column where
  /-- its name -/
  name : String
  /-- its type -/
  type : SqlType
  deriving DecidableEq, Repr

/-- What a table looks like. -/
structure Model where
  /-- the columns in order -/
  columns : List Column
  /-- constraint clauses -/
  constraints : List Template
  /-- trigger statements -/
  triggers : List Template
  /-- plain indexes -/
  indexes : List IndexShape
  /-- unique indexes -/
  uniqueIndexes : List IndexShape
  deriving DecidableEq, Repr

namespace Model

/-- The names of the columns, in order. -/
def columnNames (m : Model) : List String :=
  m.columns.map Column.name

/-- The model has a column of that name. -/
def hasColumn (m : Model) (name : String) : Bool :=
  m.columns.any fun c => c.name == name

/-- The type of a column. -/
def typeOf? (m : Model) (name : String) : Option SqlType :=
  (m.columns.find? fun c => c.name == name).map Column.type

/-- The column that generates row identifiers. -/
def primaryKey? (m : Model) : Option String :=
  (m.columns.find? fun c => c.type.isPrimaryKey).map Column.name

theorem hasColumn_iff {m : Model} {name : String} :
    m.hasColumn name = true ↔ name ∈ m.columnNames := by
  simp [hasColumn, columnNames]

end Model

/-! ## Errors -/

/-- Why something is no model. -/
inductive ModelError where
  /-- a column without a name -/
  | emptyFieldName
  /-- a column whose type is not one of the known ones -/
  | unknownType (field value : String)
  /-- two columns of one name -/
  | duplicateField (field : String)
  /-- a service entry of the wrong shape -/
  | invalidServiceValue (key reason : String)
  /-- no column at all -/
  | noDataFields
  /-- several columns that generate row identifiers -/
  | multiplePrimaryKeys (fields : List String)
  /-- an index without columns, or with a blank one -/
  | emptyIndex
  /-- two indexes that would share a name -/
  | duplicateIndex (columns : String)
  /-- an index on something that is no column of the model -/
  | unknownIndexField (field : String)
  /-- a malformed constraint or trigger -/
  | template (error : TemplateError)
  deriving DecidableEq, Repr

/-- The wording of an error. -/
def ModelError.message : ModelError → String
  | .emptyFieldName => "field name cannot be empty"
  | .unknownType field value =>
    "field " ++ quote field ++ " has unrecognized type " ++ quote value
  | .duplicateField field => "field " ++ quote field ++ " is declared more than once"
  | .invalidServiceValue key reason =>
    "service field " ++ quote key ++ " has an invalid value: " ++ reason
  | .noDataFields => "model must declare at least one data field"
  | .multiplePrimaryKeys fields =>
    "model declares more than one primary key (" ++ listing (fields.map quote) ++ ")"
  | .emptyIndex => "index declared without columns"
  | .duplicateIndex columns => "index on " ++ quote columns ++ " is declared more than once"
  | .unknownIndexField field => "index references unknown field " ++ quote field
  | .template error => error.message

/-! ## Drafts -/

/-- What to add to the declared columns. -/
structure ModelExtras where
  /-- a generated row identifier in front -/
  withId : Bool
  /-- the times of creation and update at the end -/
  withTimestamps : Bool
  deriving DecidableEq, Repr

/-- A row identifier and no timestamps. -/
def ModelExtras.standard : ModelExtras := ⟨true, false⟩

/-- The column of the generated row identifier. -/
def generatedId : String := "_id"

/-- The column of the time of creation, in milliseconds. -/
def createdColumn : String := "createdAt"

/-- The column of the time of the last update, in milliseconds. -/
def updatedColumn : String := "updatedAt"

/-- A model as it is written, nothing checked yet. -/
structure Draft where
  /-- columns in order -/
  columns : List Column
  /-- constraint templates -/
  constraints : List String
  /-- trigger templates -/
  triggers : List String
  /-- plain indexes, as lists of items -/
  indexes : List (List String)
  /-- unique indexes, as lists of items -/
  uniqueIndexes : List (List String)
  deriving DecidableEq, Repr

namespace Draft

/-- Nothing written yet. -/
def empty : Draft := ⟨[], [], [], [], []⟩

/-- One more column. -/
def column (d : Draft) (name : String) (type : SqlType) : Draft :=
  { d with columns := d.columns ++ [⟨name, type⟩] }

/-- One more constraint. -/
def constraint (d : Draft) (text : String) : Draft :=
  { d with constraints := d.constraints ++ [text] }

/-- One more trigger. -/
def trigger (d : Draft) (text : String) : Draft :=
  { d with triggers := d.triggers ++ [text] }

/-- One more index. -/
def index (d : Draft) (items : List String) : Draft :=
  { d with indexes := d.indexes ++ [items] }

/-- One more unique index. -/
def uniqueIndex (d : Draft) (items : List String) : Draft :=
  { d with uniqueIndexes := d.uniqueIndexes ++ [items] }

/-! ## From a draft to a model -/

/-- Adds columns, their names trimmed, to those declared so far. -/
def declare (declared : List Column) : List Column → Except ModelError (List Column)
  | [] => .ok declared
  | c :: cs =>
    let name := trim c.name
    if name = "" then .error .emptyFieldName
    else if declared.any fun d => d.name == name then .error (.duplicateField name)
    else declare (declared ++ [⟨name, c.type⟩]) cs

/-- `columns` with one more at the end, unless its name is there already. -/
def orElse (columns : List Column) (c : Column) : List Column :=
  if columns.any fun d => d.name == c.name then columns else columns ++ [c]

/-- The declared columns with the requested ones around them. -/
def complete (options : ModelExtras) (declared : List Column) : List Column :=
  let withId :=
    if options.withId && !(declared.any fun d => d.name == generatedId) then
      ⟨generatedId, .idPrimaryKey⟩ :: declared
    else declared
  if options.withTimestamps then
    orElse (orElse withId ⟨createdColumn, .bigint⟩) ⟨updatedColumn, .bigint⟩
  else withId

/-- The names of the columns that generate row identifiers. -/
def primaryKeys (columns : List Column) : List String :=
  (columns.filter fun c => c.type.isPrimaryKey).map Column.name

/-- Templates from their texts; the first malformed one is the answer. -/
def templates : List String → Except ModelError (List Template)
  | [] => .ok []
  | text :: rest =>
    match Template.parse text with
    | .error e => .error (.template e)
    | .ok t => (templates rest).map (t :: ·)

/-- One index from its items: its columns are columns of the model. -/
def indexShape (columns : List Column) (items : List String) : Except ModelError IndexShape :=
  match IndexShape.ofItems? items with
  | none => .error .emptyIndex
  | some spec =>
    match spec.columns.find? fun f => !(columns.any fun c => c.name == f) with
    | some missing => .error (.unknownIndexField missing)
    | none => .ok spec

/-- Indexes from their items; the first faulty one is the answer. -/
def indexSpecs (columns : List Column) : List (List String) → Except ModelError (List IndexShape)
  | [] => .ok []
  | items :: rest =>
    match indexShape columns items with
    | .error e => .error e
    | .ok spec => (indexSpecs columns rest).map (spec :: ·)

/-- Refuses a list of indexes two of which would share a name. -/
def distinct (specs : List IndexShape) : Except ModelError Unit :=
  match IndexShape.repeated? [] specs with
  | some spec => .error (.duplicateIndex spec.joined)
  | none => .ok ()

/-- The model that a draft writes. -/
def toModel (d : Draft) (options : ModelExtras) : Except ModelError Model := do
  let declared ← declare [] d.columns
  if declared.isEmpty then throw .noDataFields
  let columns := complete options declared
  if 1 < (primaryKeys columns).length then throw (.multiplePrimaryKeys (primaryKeys columns))
  let constraints ← templates d.constraints
  let triggers ← templates d.triggers
  let indexes ← indexSpecs columns d.indexes
  let uniqueIndexes ← indexSpecs columns d.uniqueIndexes
  distinct indexes
  distinct uniqueIndexes
  return ⟨columns, constraints, triggers, indexes, uniqueIndexes⟩

end Draft

end AccountHistory
