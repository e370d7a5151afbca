import AccountHistory.Sql.Command
import AccountHistory.Sql.Reader.Expr

/-!
# Reading definitions

The parts of which tables, indexes and triggers are made. A table lists its columns and then its
rules; commas part the columns and may be left out between rules.
-/

namespace AccountHistory.Sql

/-! ## Indexes -/

/-- Reads a column of an index; the direction in which it is sorted is of no concern. -/
def readIndexColumn : Reader String := fun ts =>
  match ts with
  | .word s :: rest =>
    if wordsOfPlace.contains (Text.fold s) && !Token.isKeyword "if" (.word s) then none
    else (readName (.word s :: rest)).map fun (n, r) => (n, skipDirection r)
  | ts => (readName ts).map fun (n, r) => (n, skipDirection r)
where
  /-- the tokens behind a direction -/
  skipDirection (ts : List Token) : List Token :=
    (readKeyword "asc" ts).getD ((readKeyword "desc" ts).getD ts)

/-! ## References -/

/-- Reads what happens to a row by a reference. -/
def readReferenceAction : Reader ReferenceAction := fun ts =>
  [(["cascade"], ReferenceAction.cascade), (["set", "null"], .setNull),
    (["set", "default"], .setDefault), (["no", "action"], .refuse), (["restrict"], .forbid)]
  |>.findSome? fun (words, action) => (readKeywords words ts).map fun r => (action, r)

/-- Reads what is said of a reference behind the columns it refers to, on top of what is known. How
missing values match and what happens to new rows is read and dropped. -/
def readReferenceActions (f : ForeignKey) : Nat → Reader ForeignKey
  | 0, ts => some (f, ts)
  | fuel + 1, ts =>
    match readKeyword "on" ts, readKeyword "match" ts with
    | some ts, _ => do
      let (event, ts) ← match readKeyword "insert" ts, readKeyword "update" ts,
          readKeyword "delete" ts with
        | some ts, _, _ => some (Event.insert, ts)
        | _, some ts, _ => some (Event.update, ts)
        | _, _, some ts => some (Event.delete, ts)
        | _, _, _ => none
      let (action, ts) ← readReferenceAction ts
      let f := match event with
        | .insert => f
        | .update => { f with onUpdate := action }
        | .delete => { f with onDelete := action }
      readReferenceActions f fuel ts
    | _, some ts => (readName ts).bind fun (_, ts) => readReferenceActions f fuel ts
    | _, _ => some (f, ts)

/-- Drops what is said of the moment at which a reference is checked. -/
def skipDeferral (ts : List Token) : List Token :=
  let (_, behind) := readIf ["not"] ts
  match readKeyword "deferrable" behind with
  | none => ts
  | some ts =>
    (readKeywords ["initially", "deferred"] ts).getD
      ((readKeywords ["initially", "immediate"] ts).getD ts)

/-- Reads the table and columns that a reference refers to, the keyword being read. -/
def readReference (columns : List String) : Reader ForeignKey := fun ts => do
  let (parent, ts) ← readName ts
  let (parentColumns, ts) : List String × List Token ←
    match readMark "(" ts with
    | none => some ([], ts)
    | some _ => readList readName ts
  let (f, ts) ← readReferenceActions ⟨columns, parent, parentColumns, .refuse, .refuse⟩ ts.length ts
  if parentColumns ≠ [] ∧ parentColumns.length ≠ columns.length then none
  else return (f, skipDeferral ts)

/-! ## Rules -/

/-- Drops the names of rules ahead. -/
def skipRuleNames : List Token → List Token
  | c :: n :: ts =>
    if c.isKeyword "constraint" && (readName [n]).isSome then skipRuleNames ts else c :: n :: ts
  | ts => ts

/-- Whether rows that break the rule behind which the tokens stand are passed over. -/
def readLeniency (ts : List Token) : Bool × List Token :=
  readIf ["on", "conflict", "ignore"] ts

/-- Drops what is said of rows that break a condition: they are refused all the same. -/
def skipResolution (ts : List Token) : List Token :=
  let words := ["rollback", "abort", "fail", "ignore", "replace"]
  (words.findSome? fun word => readKeywords ["on", "conflict", word] ts).getD ts

/-- Reads a rule of a table. -/
def readRule : Reader TableRule := fun ts =>
  match readKeyword "check" ts, readKeyword "unique" ts, readKeywords ["primary", "key"] ts with
  | some ts, _, _ => (readBracketed ts).map fun (e, r) => (.check e, skipResolution r)
  | _, some ts, _ =>
    (readList readIndexColumn ts).map fun (columns, r) =>
      let (lenient, r) := readLeniency r
      (.unique columns lenient, r)
  | _, _, some ts => (readList readIndexColumn ts).map fun (columns, r) => (.primary columns, r)
  | _, _, _ => do
    let ts ← readKeywords ["foreign", "key"] ts
    let (columns, ts) ← readList readName ts
    let ts ← readKeyword "references" ts
    let (f, ts) ← readReference columns ts
    return (.foreignKey f, ts)

/-- Reads a rule behind its name, or a name without a rule. -/
def readNamedRule : Reader (List TableRule) := fun ts =>
  let rest := skipRuleNames ts
  match readRule rest with
  | some (rule, ts) => some ([rule], ts)
  | none => if rest.length < ts.length then some ([], rest) else none

/-- Reads rules, at least one or the name of one. -/
def readRules : Nat → Reader (List TableRule)
  | 0, _ => none
  | fuel + 1, ts => do
    let (rules, ts) ← readNamedRule ts
    match readMark "," ts, readNamedRule ts with
    | none, none => return (rules, ts)
    | some ts, _ | none, some _ =>
      let (others, ts) ← readRules fuel ts
      return (rules ++ others, ts)

/-- The rules that are all of a text, and are so in front of others too: the bracket that closes a
table must come right behind them, and no comment or quote of the text may take it in. -/
def rulesOfText? (text : String) : Option (List TableRule) :=
  let ts := Token.ofText (text ++ ")")
  match readRules (ts.length + 1) ts with
  | some (rules, [.mark ")"]) => some rules
  | _ => none

/-! ## Columns -/

/-- Reads the value that a column has where none is given: a constant, a moment, a word as a text,
or an expression in brackets that asks for no column. -/
def readFallback : Reader Expr := fun ts =>
  match ts with
  | .mark "(" :: _ =>
    (readBracketed ts).filter fun (e, _) => !e.asksColumn
  | .name s _ :: ts => some (.const (.text s), ts)
  | .mark "+" :: .mark _ :: _ | .mark "-" :: .mark _ :: _ => none
  | ts =>
    (readOperand (ts.length + 1) ts).bind fun (e, r) =>
      match e with
      | .column .current s => some (.const (.text s), r)
      | .columnOr _ v => some (.const v, r)
      | .column (.named _) _ | .call _ _ => none
      | e => some (e, r)

/-- Reads what is said of a column behind its type, on top of what is known. -/
def readColumnRules (isInteger : Bool) : Nat → ColumnDef → List TableRule →
    Reader (ColumnDef × List TableRule)
  | 0, c, rules, ts => some ((c, rules), ts)
  | fuel + 1, c, rules, ts =>
    let ts := skipRuleNames ts
    let proceed := readColumnRules isInteger fuel
    match ts with
    | .word s :: rest =>
      match Text.fold s with
      | "not" => (readKeyword "null" rest).bind (proceed { c with notNull := true } rules)
      | "null" => proceed c rules rest
      | "primary" => do
        let rest ← readKeyword "key" rest
        let (_, rest) := readIf ["asc"] rest
        let (isReversed, rest) := readIf ["desc"] rest
        let (automatic, rest) := readIf ["autoincrement"] rest
        if c.key.isSome then none
        else if isInteger && !isReversed then
          proceed { c with key := some (if automatic then .autoincrement else .plain) } rules rest
        else if automatic then none
        else proceed c (rules ++ [.primary [c.name]]) rest
      | "unique" =>
        let (lenient, rest) := readLeniency rest
        proceed c (rules ++ [.unique [c.name] lenient]) rest
      | "default" => do
        let (e, rest) ← readFallback rest
        proceed { c with fallback := e } rules rest
      | "check" => do
        let (e, rest) ← readBracketed rest
        proceed c (rules ++ [.check e]) rest
      | "references" => do
        let (f, rest) ← readReference [c.name] rest
        proceed c (rules ++ [.foreignKey f]) rest
      | _ => some ((c, rules), ts)
    | ts => some ((c, rules), ts)

/-- A column with what is said of it. -/
structure ColumnParts where
  /-- the column -/
  column : ColumnDef
  /-- the rules that come with it -/
  rules : List TableRule
  /-- its type is the one of row identifiers -/
  isInteger : Bool

/-- Reads a column: a name, a type and what is said of it. -/
def readColumn : Reader ColumnParts := fun ts => do
  let (name, ts) ← readName ts
  let (type, ts) ← readTypeName ts
  let isInteger := Text.fold type.name == "integer" && !type.isSized
  let ((column, rules), ts) ← readColumnRules isInteger ts.length
    ⟨name, Affinity.ofTypeName type.name, false, none, .const .null⟩ [] ts
  return (⟨column, rules, isInteger⟩, ts)

/-- The parts of a table. -/
structure TableParts where
  /-- its columns -/
  columns : List ColumnDef
  /-- its rules -/
  rules : List TableRule

/-- The rule says of a column that it identifies rows, and the column has the type of row identifiers
and is not one already. -/
def ColumnParts.isKeyBy (c : ColumnParts) : TableRule → Bool
  | .primary [name] => c.isInteger && c.column.key.isNone && Text.sameFold name c.column.name
  | _ => false

/-- A rule that one column identifies rows, the only one of its kind, is about the row identifier if
the column has its type. -/
def TableParts.ofColumns (cs : List ColumnParts) (others : List TableRule) : TableParts :=
  let isKeyRule (c : ColumnParts) (rule : TableRule) : Bool :=
    others.countP TableRule.isPrimary == 1 && c.isKeyBy rule
  { columns := cs.map fun c =>
      if others.any (isKeyRule c) then { c.column with key := some .plain } else c.column
    rules := cs.flatMap ColumnParts.rules
      ++ others.filter fun rule => !cs.any fun c => isKeyRule c rule }

/-- Reads the columns of a table, at least one, and then its rules. -/
def readColumns : Nat → Reader (List ColumnParts × List TableRule)
  | 0, _ => none
  | fuel + 1, ts => do
    let (c, ts) ← readColumn ts
    match readMark "," ts with
    | none => return (([c], []), ts)
    | some ts =>
      match readRules (ts.length + 1) ts with
      | some (rules, ts) => return (([c], rules), ts)
      | none =>
        let ((cs, rules), ts) ← readColumns fuel ts
        return ((c :: cs, rules), ts)

/-- Reads the parts of a table. -/
def readParts : Reader TableParts := fun ts =>
  (readColumns ts.length ts).map fun ((cs, rules), r) => (.ofColumns cs rules, r)

/-! ## Triggers -/

/-- Reads an assignment to a column. -/
def readAssignment : Reader (String × Expr) := fun ts => do
  let (c, ts) ← readName ts
  let ts ← readMark "=" ts
  let (e, ts) ← readExpression ts
  return ((c, e), ts)

/-- Reads an assignment to rows, its keyword being read. -/
def readUpdate : Reader Action := fun ts => do
  let (table, ts) ← readName ts
  let ts ← readKeyword "set" ts
  let (assignments, ts) ← readSeries readAssignment ts.length ts
  let (condition, ts) ← readCondition ts
  return (.update table assignments condition, ts)

/-- Reads the columns that rows are given for, if they are named. -/
def readInsertColumns : Reader (Option (List String)) := fun ts =>
  match readMark "(" ts with
  | none => some (none, ts)
  | some _ => (readList readName ts).map fun (names, r) => (some names, r)

/-- Reads rows to add, the keyword in front of them being read. -/
def readRows : Reader (List (List Expr)) := fun ts =>
  readSeries (readList readExpression) ts.length ts

/-- Reads what rows a trigger adds, the keywords in front being read. -/
def readInsertion : Reader Action := fun ts => do
  let (table, ts) ← readName ts
  let (columns, ts) ← readInsertColumns ts
  let ts ← readKeyword "values" ts
  let (rows, ts) ← readRows ts
  return (.insert table columns rows, ts)

/-- Reads what rows a trigger removes, the keywords in front being read. -/
def readDeletion : Reader Action := fun ts => do
  let (table, ts) ← readName ts
  let (condition, ts) ← readCondition ts
  return (.delete table condition, ts)

/-- Reads one of the things that a trigger does, with the semicolon behind it. -/
def readAction : Reader Action := fun ts => do
  let (action, ts) ←
    match readKeyword "update" ts, readKeyword "select" ts, readKeywords ["insert", "into"] ts,
        readKeywords ["delete", "from"] ts with
    | some ts, _, _, _ => readUpdate ts
    | _, some ts, _, _ => (readExpressions ts).map fun (es, r) => (Action.select es, r)
    | _, _, some ts, _ => readInsertion ts
    | _, _, _, some ts => readDeletion ts
    | _, _, _, _ => none
  let ts ← readMark ";" ts
  return (action, ts)

/-- Reads actions up to the end of a trigger, at least one. -/
def readActions : Nat → Reader (List Action)
  | 0, _ => none
  | fuel + 1, ts => do
    let (action, ts) ← readAction ts
    match readKeyword "end" ts with
    | some ts => return ([action], ts)
    | none =>
      let (actions, ts) ← readActions fuel ts
      return (action :: actions, ts)

/-- Reads the change that a trigger waits for. -/
def readEvent : Reader Event := fun ts =>
  match readKeyword "insert" ts, readKeyword "update" ts, readKeyword "delete" ts with
  | some ts, _, _ => some (.insert, ts)
  | _, some ts, _ => some (.update, ts)
  | _, _, some ts => some (.delete, ts)
  | _, _, _ => none

/-- Reads a trigger, the words before its name being read. -/
def readTrigger : Reader Trigger := fun ts => do
  let (name, ts) ← readNewName ts
  let ts ← readKeyword "after" ts
  let (event, ts) ← readEvent ts
  let ts ← readKeyword "on" ts
  let (table, ts) ← readTableName ts
  let (_, ts) := readIf ["for", "each", "row"] ts
  let (guard, ts) : Option Expr × List Token ←
    match readKeyword "when" ts with
    | none => some (none, ts)
    | some ts => (readExpression ts).map fun (e, r) => (some e, r)
  let ts ← readKeyword "begin" ts
  let (actions, ts) ← readActions ts.length ts
  return (⟨name, table, event, guard, actions⟩, ts)

end AccountHistory.Sql
