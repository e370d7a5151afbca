import AccountHistory.Sql.Expr
import AccountHistory.Sql.Reader.Basic

/-!
# Reading expressions

An operator binds the stronger the greater its strength, and operators of one strength bind from the
left. A bare word in an expression is a column, unless it begins an expression of its own.
-/

namespace AccountHistory.Sql

/-! ## Numbers -/

/-- Separators stand between two digits only. -/
def separatesDigits (isOne : Char → Bool) : List Char → Bool
  | a :: '_' :: b :: cs => isOne a && isOne b && separatesDigits isOne (b :: cs)
  | '_' :: _ | [_, '_'] => false
  | _ :: cs => separatesDigits isOne cs
  | [] => true

/-- The integer whose 64 bits are those of `n`. -/
def ofBits (n : Nat) : Int :=
  if n < twoPow 63 then n else (n : Int) - twoPow 64

/-- The number that hexadecimal digits write in 64 bits. Its negative must fit them too. -/
def hexValue? (negative : Bool) (digits : List Char) : Option Value :=
  let n := ofHexDigits digits
  if twoPow 64 ≤ n ∨ (negative ∧ n = twoPow 63) then none
  else some (.int (if negative then -ofBits n else ofBits n))

/-- The value of a number as it is written in an expression. -/
def numberValue? (negative : Bool) (written : List Char) : Option Value :=
  let digits := written.filter (· ≠ '_')
  match written, digits with
  | '0' :: x :: cs, _ :: _ :: hex =>
    if x == 'x' || x == 'X' then
      if separatesDigits isHexDigit cs then hexValue? negative hex else none
    else decimal digits
  | _, digits => decimal digits
where
  /-- the value of a number to the base ten -/
  decimal (digits : List Char) : Option Value :=
    if separatesDigits isDigit written then
      match Numeral.read digits with
      | some (n, []) => some (.ofNumeral { n with negative := negative })
      | _ => none
    else none

/-! ## Operators -/

/-- The operator ahead with its strength and the tokens behind it. -/
def operator? : List Token → Option (Operator × Nat × List Token)
  | .word s :: ts =>
    match Text.fold s with
    | "or" => some (.or, 1, ts)
    | "and" => some (.and, 2, ts)
    | "is" =>
      match readKeyword "not" ts with
      | some ts => some (.different, 4, ts)
      | none => some (.same, 4, ts)
    | _ => none
  | .mark m :: ts =>
    match m with
    | "=" | "==" => some (.eq, 4, ts)
    | "<>" | "!=" => some (.ne, 4, ts)
    | "<" => some (.lt, 5, ts)
    | "<=" => some (.le, 5, ts)
    | ">" => some (.gt, 5, ts)
    | ">=" => some (.ge, 5, ts)
    | "+" => some (.add, 6, ts)
    | "-" => some (.sub, 6, ts)
    | "*" => some (.mul, 7, ts)
    | "/" => some (.div, 7, ts)
    | "%" => some (.rem, 7, ts)
    | "||" => some (.concat, 8, ts)
    | _ => none
  | _ => none

/-! ## Columns -/

/-- Reads what follows the first part of a column's name: the column of a row that the first part
names, behind the name of the database perhaps. -/
def readQualified (first : String) : Reader Expr := fun ts => do
  let (second, ts) ← readName ts
  match readMark "." ts with
  | none => return (.column (.named first) second, ts)
  | some ts =>
    let (third, ts) ← readName ts
    if Text.sameFold first databaseName then return (.column (.named second) third, ts) else none

/-- A bare word as an expression: a column, or a truth value if there is no such column. -/
def wordExpr (s : String) : Expr :=
  match Text.fold s with
  | "true" => .columnOr s (.int 1)
  | "false" => .columnOr s (.int 0)
  | _ => .column .current s

/-- The form of the moment that a word asks for. -/
def clockWord? (s : String) : Option ClockForm :=
  match Text.fold s with
  | "current_date" => some .date
  | "current_time" => some .time
  | "current_timestamp" => some .dateTime
  | _ => none

/-! ## Expressions -/

/-- How strongly tests bind: as comparisons for equality do. -/
def likeStrength : Nat := 4

/-- What a function of that name makes of expressions. -/
def callOf? (name : String) (items : List Expr) : Option Expr :=
  match Text.fold name, items with
  | "length", [e] => some (.call .length e)
  | "abs", [e] => some (.call .abs e)
  | "typeof", [e] => some (.call .typeName e)
  | "lower", [e] => some (.call .lower e)
  | "upper", [e] => some (.call .upper e)
  | "ifnull", [a, b] => some (.orElse a b)
  | "coalesce", a :: b :: rest => some (.orElse a (rest.foldl .orElse b))
  | _, _ => none

mutual

/-- Reads an expression whose operators are at least as strong as `power`. -/
def readExpr : Nat → Nat → Reader Expr
  | 0, _, _ => none
  | fuel + 1, power, ts => do
    let (left, ts) ← readOperand fuel ts
    readTail fuel power left ts

/-- Reads the operators and right sides behind an expression. -/
def readTail : Nat → Nat → Expr → Reader Expr
  | 0, _, _, _ => none
  | fuel + 1, power, left, ts =>
    match operator? ts with
    | some (op, strength, rest) =>
      if strength < power then some (left, ts)
      else do
        let (right, rest) ← readExpr fuel (strength + 1) rest
        readTail fuel power (.binary op left right) rest
    | none =>
      if likeStrength < power then some (left, ts)
      else
        match readTest fuel left ts with
        | none => some (left, ts)
        | some (e, rest) => readTail fuel power e rest

/-- Reads a test of the expression in front of it: for a pattern, a range, a list, or being missing.
-/
def readTest : Nat → Expr → Reader Expr
  | 0, _, _ => none
  | fuel + 1, left, ts =>
    let (negated, ts) := readIf ["not"] ts
    let said (e : Expr) : Expr := if negated then .not e else e
    match ts with
    | .word s :: rest =>
      match Text.fold s, negated with
      | "like", _ =>
        (readExpr fuel (likeStrength + 1) rest).map fun (right, r) =>
          (said (.binary .like left right), r)
      | "between", _ => do
        let (low, rest) ← readExpr fuel likeStrength rest
        let rest ← readKeyword "and" rest
        let (high, rest) ← readExpr fuel (likeStrength + 1) rest
        return (said (.binary .and (.binary .ge left low) (.binary .le left high)), rest)
      | "in", _ => do
        let rest ← readMark "(" rest
        match readMark ")" rest with
        | some rest => return (said (.const (.int 0)), rest)
        | none =>
          let (items, rest) ← readSeries (readExpr fuel 0) rest.length rest
          let rest ← readMark ")" rest
          let isItem (item : Expr) : Expr := .binary .eq left (.plain item)
          return (said ((items.drop 1).foldl (fun e item => .binary .or e (isItem item))
            (isItem (items.headD (.const .null)))), rest)
      | "isnull", false => some (.binary .same left (.const .null), rest)
      | "notnull", false | "null", true => some (.binary .different left (.const .null), rest)
      | _, _ => none
    | _ => none

/-- Reads an expression without operators around it. -/
def readOperand : Nat → Reader Expr
  | 0, _ => none
  | fuel + 1, ts =>
    match ts with
    | .number written :: rest => (numberValue? false written).map fun v => (.const v, rest)
    | .text s :: .mark "." :: rest => readQualified s rest
    | .text s :: rest => some (.const (.text s), rest)
    | .mark "-" :: .number written :: rest =>
      (numberValue? true written).map fun v => (.const v, rest)
    | .mark "-" :: rest => (readOperand fuel rest).map fun (e, r) => (.neg e, r)
    | .mark "+" :: rest => (readOperand fuel rest).map fun (e, r) => (.plain e, r)
    | .mark "(" :: rest => do
      let (e, rest) ← readExpr fuel 0 rest
      let rest ← readMark ")" rest
      return (e, rest)
    | .name s _ :: .mark "." :: rest => readQualified s rest
    | .name s orText :: rest =>
      some (if orText then .columnOr s (.text s) else .column .current s, rest)
    | .word s :: rest =>
      match Text.fold s with
      | "null" => some (.const .null, rest)
      | "not" => (readExpr fuel 3 rest).map fun (e, r) => (.not e, r)
      | "raise" => none
      | "cast" => do
        let rest ← readMark "(" rest
        let (e, rest) ← readExpr fuel 0 rest
        let rest ← readKeyword "as" rest
        let (type, rest) ← readTypeName rest
        let rest ← readMark ")" rest
        return (.cast e (Affinity.ofTypeName type.name), rest)
      | "julianday" =>
        match rest with
        | .mark "(" :: .text "now" :: .mark ")" :: rest => some (.now .days, rest)
        | .mark "(" :: _ => none
        | rest => some (.column .current s, rest)
      | _ =>
        match clockWord? s with
        | some form => some (.now form, rest)
        | none =>
          if isFreeWord s then
            match rest with
            | .mark "." :: rest => readQualified s rest
            | .mark "(" :: rest => do
              let (items, rest) ← readSeries (readExpr fuel 0) rest.length rest
              let rest ← readMark ")" rest
              return (← callOf? s items, rest)
            | rest => some (wordExpr s, rest)
          else none
    | _ => none

end

/-- Reads an expression. -/
def readExpression : Reader Expr := fun ts =>
  readExpr (2 * ts.length + 2) 0 ts

/-- Reads an expression in brackets. -/
def readBracketed : Reader Expr := fun ts => do
  let ts ← readMark "(" ts
  let (e, ts) ← readExpression ts
  let ts ← readMark ")" ts
  return (e, ts)

/-- Reads expressions with commas between them, at least one. -/
def readExpressions : Reader (List Expr) := fun ts =>
  readSeries readExpression ts.length ts

/-- Reads a condition behind its keyword, if the keyword is ahead. -/
def readCondition : Reader (Option Expr) := fun ts =>
  match readKeyword "where" ts with
  | none => some (none, ts)
  | some ts => (readExpression ts).map fun (e, r) => (some e, r)

end AccountHistory.Sql
