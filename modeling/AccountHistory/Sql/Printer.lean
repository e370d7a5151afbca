import AccountHistory.Sql.Command

/-!
# Writing commands

The text of a command that makes a table, an index or a trigger, or adds rows. Names stand in quotes
and every operator in brackets, so that the text reads the same whatever the names are and however
operators bind.
-/

namespace AccountHistory.Sql

/-! ## Names and values -/

/-- A text between quotes, the quotes inside doubled. -/
def quoted (quote : Char) (s : String) : String :=
  String.ofList (quote :: (s.toList.flatMap fun c => if c = quote then [c, c] else [c]) ++ [quote])

/-- A name. -/
def nameText (s : String) : String :=
  quoted '"' s

/-- The name of a column that is not meant as a text. -/
def columnText (s : String) : String :=
  quoted '\x60' s

/-- Names between brackets. -/
def namesText (names : List String) : String :=
  "(" ++ ", ".intercalate (names.map nameText) ++ ")"

/-- A double in as many digits as tell it from all others. -/
def realLiteral : Number.Double → String
  | .infinite negative => if negative then "-9e999" else "9e999"
  | x => x.written 17

/-- A value. -/
def Value.literal : Value → String
  | .null => "NULL"
  | .int n => toString n
  | .real x => realLiteral x
  | .text s => quoted '\'' s

/-- The name of a type with the affinity. -/
def Affinity.typeName : Affinity → String
  | .integer => "INTEGER"
  | .numeric => "NUMERIC"
  | .real => "REAL"
  | .text => "TEXT"
  | .blob => "BLOB"

/-! ## Expressions -/

/-- An operator. -/
def Operator.text : Operator → String
  | .or => "OR"
  | .and => "AND"
  | .eq => "="
  | .ne => "<>"
  | .same => "IS"
  | .different => "IS NOT"
  | .lt => "<"
  | .le => "<="
  | .gt => ">"
  | .ge => ">="
  | .add => "+"
  | .sub => "-"
  | .mul => "*"
  | .div => "/"
  | .rem => "%"
  | .concat => "||"
  | .like => "LIKE"

/-- The name of a function. -/
def Property.text : Property → String
  | .length => "length"
  | .abs => "abs"
  | .typeName => "typeof"
  | .lower => "lower"
  | .upper => "upper"

/-- What stands before a column of a row. -/
def RowName.text : RowName → String
  | .current => ""
  | .named name => nameText name ++ "."

/-- The word for a form of the moment. -/
def ClockForm.text : ClockForm → String
  | .days => "julianday('now')"
  | .date => "CURRENT_DATE"
  | .time => "CURRENT_TIME"
  | .dateTime => "CURRENT_TIMESTAMP"

/-- An expression. -/
def Expr.text : Expr → String
  | .const v => v.literal
  | .column row name => row.text ++ columnText name
  | .columnOr name (.int _) => name
  | .columnOr name _ => nameText name
  | .now form => form.text
  | .not e => "(NOT " ++ e.text ++ ")"
  | .neg e => "(- (" ++ e.text ++ "))"
  | .plain e => "(+ " ++ e.text ++ ")"
  | .binary op left right => "(" ++ left.text ++ " " ++ op.text ++ " " ++ right.text ++ ")"
  | .cast e kind => "CAST(" ++ e.text ++ " AS " ++ kind.typeName ++ ")"
  | .call p e => p.text ++ "(" ++ e.text ++ ")"
  | .orElse first second => "ifnull(" ++ first.text ++ ", " ++ second.text ++ ")"

/-- A condition behind its keyword. -/
def conditionText : Option Expr → String
  | none => ""
  | some e => " WHERE " ++ e.text

/-! ## Tables, indexes and triggers -/

/-- The name of the type of a column. A column of integers that does not identify rows is not of the
type that would make it do so. -/
def ColumnDef.typeName (c : ColumnDef) : String :=
  if c.affinity = .integer ∧ c.key = none then "INT" else c.affinity.typeName

/-- A column. -/
def ColumnDef.text (c : ColumnDef) : String :=
  nameText c.name ++ " " ++ c.typeName ++ (if c.notNull then " NOT NULL" else "")
    ++ (match c.key with
      | none => ""
      | some .plain => " PRIMARY KEY"
      | some .autoincrement => " PRIMARY KEY AUTOINCREMENT")
    ++ if c.fallback = .const .null then "" else " DEFAULT (" ++ c.fallback.text ++ ")"

/-- What happens to a row by a reference, behind the words for the event. -/
def ReferenceAction.text (event : String) : ReferenceAction → String
  | .refuse => ""
  | .forbid => event ++ "RESTRICT"
  | .cascade => event ++ "CASCADE"
  | .setNull => event ++ "SET NULL"
  | .setDefault => event ++ "SET DEFAULT"

/-- A rule. -/
def TableRule.text : TableRule → String
  | .check e => "CHECK (" ++ e.text ++ ")"
  | .foreignKey f =>
    "FOREIGN KEY " ++ namesText f.columns ++ " REFERENCES " ++ nameText f.parent
      ++ (if f.parentColumns.isEmpty then "" else namesText f.parentColumns)
      ++ f.onDelete.text " ON DELETE " ++ f.onUpdate.text " ON UPDATE "
  | .unique columns lenient =>
    "UNIQUE " ++ namesText columns ++ (if lenient then " ON CONFLICT IGNORE" else "")
  | .primary columns => "PRIMARY KEY " ++ namesText columns

/-- The command that makes a table. -/
def tableText (name : String) (columns : List ColumnDef) (rules : List TableRule) : String :=
  "CREATE TABLE " ++ nameText name ++ " ("
    ++ ", ".intercalate (columns.map ColumnDef.text ++ rules.map TableRule.text) ++ ")"

/-- The command that makes an index. -/
def indexText (unique : Bool) (name table : String) (columns : List String)
    (predicate : Option Expr) : String :=
  "CREATE " ++ (if unique then "UNIQUE " else "") ++ "INDEX " ++ nameText name ++ " ON "
    ++ nameText table ++ " " ++ namesText columns ++ conditionText predicate

/-- A change that a trigger waits for. -/
def Event.text : Event → String
  | .insert => "INSERT"
  | .update => "UPDATE"
  | .delete => "DELETE"

/-- Rows behind their keyword. -/
def rowsText (rows : List (List Expr)) : String :=
  " VALUES " ++ ", ".intercalate (rows.map fun row =>
    "(" ++ ", ".intercalate (row.map Expr.text) ++ ")")

/-- What a trigger does. -/
def Action.text : Action → String
  | .update table assignments condition =>
    "UPDATE " ++ nameText table ++ " SET "
      ++ ", ".intercalate (assignments.map fun a => nameText a.1 ++ " = " ++ a.2.text)
      ++ conditionText condition
  | .insert table columns rows =>
    "INSERT INTO " ++ nameText table ++ columns.elim "" (fun names => " " ++ namesText names)
      ++ rowsText rows
  | .delete table condition => "DELETE FROM " ++ nameText table ++ conditionText condition
  | .select es => "SELECT " ++ ", ".intercalate (es.map Expr.text)

/-- The command that makes a trigger. -/
def Trigger.text (g : Trigger) : String :=
  "CREATE TRIGGER " ++ nameText g.name ++ " AFTER " ++ g.event.text ++ " ON " ++ nameText g.table
    ++ (match g.guard with
      | none => ""
      | some e => " WHEN " ++ e.text)
    ++ " BEGIN " ++ String.join (g.actions.map fun a => a.text ++ "; ") ++ "END"

/-- The command that adds a row. -/
def rowText (table : String) (columns : List String) (values : List Value) : String :=
  "INSERT INTO " ++ nameText table ++ " " ++ namesText columns
    ++ rowsText [values.map Expr.const]

end AccountHistory.Sql
