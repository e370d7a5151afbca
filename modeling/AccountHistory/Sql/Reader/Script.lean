import AccountHistory.Sql.Reader.Definition

/-!
# Reading commands

A text of several statements is read into a `Script`: the commands up to the first statement that
cannot be read, and whether there is one. So the statements before a broken one can be obeyed.
-/

namespace AccountHistory.Sql

/-! ## Rows -/

/-- Reads what rows are made of another table. -/
def readSelection : Reader (List Expr × String) := fun ts => do
  let ts ← readKeyword "select" ts
  let (es, ts) ← readExpressions ts
  let ts ← readKeyword "from" ts
  let (table, ts) ← readTableName ts
  return ((es, table), ts)

/-- Reads rows to add, the words before the table being read. -/
def readInsert : Reader Command := fun ts => do
  let (table, ts) ← readTableName ts
  let (columns, ts) ← readInsertColumns ts
  match readKeyword "values" ts with
  | some ts =>
    let (rows, ts) ← readRows ts
    return (.insert table columns rows, ts)
  | none =>
    let ((row, source), ts) ← readSelection ts
    return (.insertFrom table columns source row, ts)

/-! ## Settings -/

/-- Reads the value of a setting as it is written: a number with its sign, a name, or one of the
keywords that may be values. -/
def readSettingValue : Reader (List Char)
  | .mark "-" :: .number written :: ts =>
    if written.contains '_' then none else some ('-' :: written, ts)
  | .mark "+" :: .number written :: ts | .number written :: ts =>
    if written.contains '_' then none else some (written, ts)
  | .word s :: ts =>
    if isFreeWord s || ["on", "delete", "default"].contains (Text.fold s) then some (s.toList, ts)
    else none
  | ts => (readName ts).map fun (s, r) => (s.toList, r)

/-- The number in front of the value of a setting; zero if there is none, or if it does not fit 32
bits with a sign. -/
def settingNumber (cs : List Char) : Int :=
  let fitted (n : Int) : Int := if -2147483648 ≤ n ∧ n ≤ 2147483647 then n else 0
  match cs with
  | '0' :: x :: r =>
    if x == 'x' || x == 'X' then
      fitted (ofHexDigits (r.takeWhile isHexDigit))
    else fitted (Numeral.ofDigits (cs.takeWhile isDigit))
  | _ =>
    let (negative, r) := Numeral.readSign cs
    let n : Int := Numeral.ofDigits (r.takeWhile isDigit)
    fitted (if negative then -n else n)

/-- The value of a setting that is on: a number other than zero in its lowest eight bits, or one of
the words for it. -/
def isOn (cs : List Char) : Bool :=
  if (cs.head?).any isDigit then settingNumber cs % 256 != 0
  else ["on", "yes", "true"].contains (Text.fold (String.ofList cs))

/-- What giving a value to a setting of that name does. -/
def settingCommand (name : String) (value : List Char) : Command :=
  match Text.fold name with
  | "user_version" => .setVersion (settingNumber value)
  | "foreign_keys" => .setForeignKeys (isOn value)
  | "legacy_alter_table" => .setLegacyRename (isOn value)
  | "busy_timeout" => .setBusyTimeout (settingNumber value)
  | _ => .nothing

/-- Reads a setting, its first keyword being read; a setting without a value changes nothing. -/
def readPragma : Reader Command := fun ts => do
  let (name, ts) ← readTableName ts
  match readMark "=" ts, readMark "(" ts with
  | some ts, _ =>
    let (value, ts) ← readSettingValue ts
    return (settingCommand name value, ts)
  | _, some ts =>
    let (value, ts) ← readSettingValue ts
    let ts ← readMark ")" ts
    return (settingCommand name value, ts)
  | _, _ => return (.nothing, ts)

/-! ## Commands -/

/-- Reads what follows the keyword of making something. -/
def readCreate : Reader Command := fun ts =>
  match readKeyword "table" ts, readKeyword "trigger" ts with
  | some ts, _ => do
    let (ifAbsent, ts) := readIf ["if", "not", "exists"] ts
    let (name, ts) ← readNewName ts
    let ts ← readMark "(" ts
    let (parts, ts) ← readParts ts
    let ts ← readMark ")" ts
    return (.createTable ifAbsent name parts.columns parts.rules, ts)
  | _, some ts => do
    let (ifAbsent, ts) := readIf ["if", "not", "exists"] ts
    let (trigger, ts) ← readTrigger ts
    return (.createTrigger ifAbsent trigger, ts)
  | _, _ => do
    let (unique, ts) := readIf ["unique"] ts
    let ts ← readKeyword "index" ts
    let (ifAbsent, ts) := readIf ["if", "not", "exists"] ts
    let (name, ts) ← readNewName ts
    let ts ← readKeyword "on" ts
    let (table, ts) ← readName ts
    let (columns, ts) ← readList readIndexColumn ts
    let (predicate, ts) ← readCondition ts
    return (.createIndex ifAbsent unique name table columns predicate, ts)

/-- Reads what follows the keyword of altering something. -/
def readAlter : Reader Command := fun ts => do
  let ts ← readKeyword "table" ts
  let (table, ts) ← readTableName ts
  match readKeywords ["rename", "to"] ts with
  | some ts =>
    let (name, ts) ← readName ts
    return (.renameTable table name, ts)
  | none =>
    let ts ← readKeyword "add" ts
    let (_, ts) := readIf ["column"] ts
    let (parts, ts) ← readColumn ts
    return (.addColumn table parts.column parts.rules, ts)

/-- Reads what follows the keyword of dropping something. A condition may stand before the name, and
then another database has nothing to drop. -/
def readDrop : Reader Command := fun ts => do
  let ts ← readKeyword "table" ts
  let (ifPresent, ts) := readIf ["if", "exists"] ts
  if !ifPresent && (readKeyword "if" ts).isSome then none
  else
    let ((database, name), ts) ← readDottedName ts
    if database.all (Text.sameFold databaseName) then return (.dropTable ifPresent name, ts)
    else if ifPresent then return (.nothing, ts)
    else none

/-- Reads a command by its first keyword. -/
def readCommand : Reader Command
  | .word s :: ts =>
    match Text.fold s with
    | "create" => readCreate ts
    | "alter" => readAlter ts
    | "drop" => readDrop ts
    | "insert" => (readKeyword "into" ts).bind readInsert
    | "delete" => do
      let ts ← readKeyword "from" ts
      let (table, ts) ← readTableName ts
      let (condition, ts) ← readCondition ts
      return (.delete table condition, ts)
    | "pragma" => readPragma ts
    | "select" => (readExpressions ts).map fun (es, r) => (.select es, r)
    | _ => none
  | _ => none

/-! ## Scripts -/

/-- A text of several statements. -/
structure Script where
  /-- the commands before the first statement that cannot be read -/
  commands : List Command
  /-- there is such a statement -/
  isBroken : Bool
  deriving DecidableEq, Repr

/-- The command has its effect as soon as it is read, whatever follows it. -/
def Command.actsWhenRead : Command → Bool
  | .setForeignKeys _ | .setLegacyRename _ | .setBusyTimeout _ => true
  | _ => false

namespace Script

/-- Reads statements with semicolons between them, in at most as many steps as the bound says. -/
def read : Nat → List Token → Script
  | 0, _ => ⟨[], true⟩
  | _ + 1, [] => ⟨[], false⟩
  | fuel + 1, t :: ts =>
    if t = .mark ";" then read fuel ts
    else
      match readCommand (t :: ts) with
      | none => ⟨[], true⟩
      | some (c, rest) =>
        match rest with
        | [] => ⟨[c], false⟩
        | r :: rest =>
          if r = .mark ";" then
            let s := read fuel rest
            ⟨c :: s.commands, s.isBroken⟩
          else ⟨if c.actsWhenRead && r != .stray then [c] else [], true⟩

/-- The statements that tokens make up. -/
def ofTokens (ts : List Token) : Script :=
  read (ts.length + 1) ts

/-- The statements of a text. A text with the character of number zero is no text of statements. -/
def ofText (text : String) : Script :=
  if text.toList.contains '\x00' then ⟨[], true⟩ else ofTokens (Token.ofText text)

/-- The first statement alone, where there is one. -/
def first (s : Script) : Script :=
  ⟨s.commands.take 1, s.isBroken && s.commands.isEmpty⟩

end Script

/-! ## Questions -/

/-- Reads expressions in brackets, perhaps none, and the table that they are asked of. -/
def readQuestion : Reader (List Expr × String) := fun ts => do
  let ts ← readMark "(" ts
  let (es, ts) ← match readMark ")" ts with
    | some _ => some ([], ts)
    | none => readExpressions ts
  let ts ← readKeyword "from" (← readMark ")" ts)
  let (table, ts) ← readTableName ts
  return ((es, table), ts)

/-- The question about a table that texts ask. -/
def questionOfTexts? (expressions table : String) : Option (List Expr × String) :=
  match readQuestion (Token.ofText ("(" ++ expressions ++ ") FROM " ++ table)) with
  | some (question, []) => some question
  | _ => none

end AccountHistory.Sql
