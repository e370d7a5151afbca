import AccountHistory.Schema.Statement
import AccountHistory.Store.Session

/-!
# Obeying the statements of a schema

What a statement of a schema does to a session. A statement made of a model whose names are plain
ones is obeyed as the command it stands for; the texts of its constraints and conditions are read
for what they say. Any other statement is run as the text that it is: a name that is not plain may
end the statement early, name another table, or be no name at all.
-/

namespace AccountHistory

open Store Sql

/-- The column of a store that a column of a model stands for. -/
def Column.definition (c : Column) : ColumnDef :=
  let of (affinity : Affinity) (notNull : Bool) (key : Option RowKey) : ColumnDef :=
    ⟨c.name, affinity, notNull, key, .const .null⟩
  match c.type with
  | .idPrimaryKey => of .integer true (some .autoincrement)
  | .integerPrimaryKey => of .integer false (some .autoincrement)
  | .integer | .bigint => of .integer false none
  | .integerNotNull | .bigintNotNull => of .integer true none
  | .decimal => of .numeric false none
  | .decimalNotNull => of .numeric true none
  | .varchar | .text => of .text false none
  | .varcharNotNull | .textNotNull => of .text true none

/-- The type is that of row identifiers. -/
def SqlType.isInteger : SqlType → Bool
  | .idPrimaryKey | .integerPrimaryKey | .integer | .integerNotNull => true
  | _ => false

/-- What the text of a column of a model says. -/
def Column.parts (c : Column) : ColumnParts :=
  ⟨c.definition, [], c.type.isInteger⟩

namespace Statement

/-- The rules that the texts of constraints state. -/
def rulesOf? (constraints : List String) : Option (List TableRule) :=
  (constraints.mapM rulesOfText?).map List.flatten

/-- The condition that a text beginning with its keyword states. -/
def conditionOf? (text : String) : Option Expr :=
  match readCondition (Token.ofText text) with
  | some (some e, []) => some e
  | _ => none

/-- The command that a statement stands for; `none` if it has to be read as a text. -/
def command? : Statement → Option Command
  | .createTable ifAbsent table columns constraints =>
    if isPlainName table && columns.all fun c => isPlainName c.name then
      (rulesOf? constraints).map fun rules =>
        let parts := TableParts.ofColumns (columns.map Column.parts) rules
        .createTable ifAbsent table parts.columns parts.rules
    else none
  | .createIndex table unique spec =>
    -- the name of the index is made of these and of underscores, so it is a name too
    if isPlainName table && spec.columns.all isPlainName then
      let name := spec.name table unique
      match spec.predicate with
      | none => some (.createIndex true unique name table spec.columns none)
      | some text =>
        (conditionOf? text).map fun e =>
          .createIndex true unique name table spec.columns (some e)
    else none
  | .rename table name =>
    if isPlainName table && isPlainName name then some (.renameTable table name) else none
  | .copy table source columns =>
    if isPlainName table && isPlainName source && !columns.isEmpty && columns.all isPlainName then
      some (.insertFrom table (some columns) source (columns.map (.column .current)))
    else none
  | .drop ifPresent table =>
    if isPlainName table then some (.dropTable ifPresent table) else none
  | .authored _ => none

/-- What a statement says as a text. A drop is obeyed as one statement, whatever follows it. -/
def script (st : Statement) : Script :=
  match st with
  | .drop _ _ => (Script.ofText st.text).first
  | st => Script.ofText st.text

/-- Obeys a statement. -/
def run (s : Session) (inTransaction : Bool) (st : Statement) : Except Fault Session :=
  match st.command? with
  | some c => s.obey inTransaction c
  | none =>
    match s.runScript inTransaction st.script with
    | (_, some e) => .error e
    | (s', none) => .ok s'

/-- What statements do to sessions. -/
abbrev Runner := Session → Statement → Except Fault Session

/-- Obeys a statement inside a transaction. -/
def runInside : Runner := fun s st => st.run s true

/-- Runs statements one after the other: all of them, or none. -/
def runAllBy (run : Runner) (s : Session) : List Statement → Except Fault Session
  | [] => .ok s
  | st :: rest =>
    match run s st with
    | .error e => .error e
    | .ok s' => runAllBy run s' rest

/-- Obeys statements one after the other inside a transaction: all of them, or none. -/
def runAll (s : Session) (statements : List Statement) : Except Fault Session :=
  runAllBy runInside s statements

end Statement

end AccountHistory
