import AccountHistory.Sql.Clock
import AccountHistory.Text.Like

/-!
# Conditions and expressions

Checks, the conditions of partial indexes, the conditions of deletions and the assignments of
triggers are expressions over the columns of a row. An expression always has a value: arithmetic and
comparison with a missing value miss too, and a condition holds if its value is a number other than
zero.

* `unknown?` is the first column that its surroundings do not have. An expression with such a column
  is not evaluated at all;
* `operand` is the value together with the affinity of the column it is taken from, which decides
  how it is compared; `eval` is the value alone.

The moment at which a statement runs is part of the surroundings, so that evaluation is a function
of its arguments alone.
-/

namespace AccountHistory.Sql

open Number

/-! ## Expressions -/

/-- Operators between two expressions. -/
inductive Operator where
  /-- either holds -/
  | or
  /-- both hold -/
  | and
  /-- equal, unless one is missing -/
  | eq
  /-- different, unless one is missing -/
  | ne
  /-- the same, missing values included -/
  | same
  /-- not the same, missing values included -/
  | different
  /-- below -/
  | lt
  /-- below or equal -/
  | le
  /-- above -/
  | gt
  /-- above or equal -/
  | ge
  /-- sum -/
  | add
  /-- difference -/
  | sub
  /-- product -/
  | mul
  /-- quotient -/
  | div
  /-- what is left of a division -/
  | rem
  /-- one text behind the other -/
  | concat
  /-- a text matches a pattern -/
  | like
  deriving DecidableEq, Repr

/-- What is asked of one value. -/
inductive Property where
  /-- the number of characters -/
  | length
  /-- the number without its sign -/
  | abs
  /-- the name of its kind -/
  | typeName
  /-- the text in small letters -/
  | lower
  /-- the text in capitals -/
  | upper
  deriving DecidableEq, Repr

/-- Which row a column is taken from. -/
inductive RowName where
  /-- the row at hand -/
  | current
  /-- a row by the name of its table, or of the change that leaves or finds it -/
  | named (name : String)
  deriving DecidableEq, Repr

/-- An expression. -/
inductive Expr where
  /-- a constant -/
  | const (v : Value)
  /-- a column of a row -/
  | column (row : RowName) (name : String)
  /-- a column of the row at hand, or a constant if there is no such column -/
  | columnOr (name : String) (v : Value)
  /-- the moment of running -/
  | now (form : ClockForm)
  /-- the condition fails -/
  | not (e : Expr)
  /-- the negative number -/
  | neg (e : Expr)
  /-- the value without the affinity of its column -/
  | plain (e : Expr)
  /-- an operator between two expressions -/
  | binary (op : Operator) (left right : Expr)
  /-- a value brought to a kind -/
  | cast (e : Expr) (kind : Affinity)
  /-- what is asked of a value -/
  | call (p : Property) (e : Expr)
  /-- the first value, or the second if the first is missing -/
  | orElse (first second : Expr)
  deriving DecidableEq, Repr, Inhabited

/-! ## Surroundings -/

/-- The surroundings of an expression. -/
structure Scope where
  /-- a column of a row with its value; `none` if there is no such column -/
  column? : RowName → String → Option Operand
  /-- the moment of running, in milliseconds since 1970 -/
  clock : Int

/-- No rows at all. -/
def Scope.bare (clock : Int) : Scope := ⟨fun _ _ => none, clock⟩

/-- The columns that surroundings have. -/
abbrev Columns := RowName → String → Bool

namespace Expr

/-! ## Values -/

/-- The truth of a value: missing, or a number other than zero. Texts that begin with no number are
false. -/
def truth? (v : Value) : Option Bool :=
  match v.number with
  | .null => none
  | .real x => some (x ≠ .zero)
  | w => some (w.integer ≠ 0)

/-- A truth value as a number. -/
def ofTruth : Option Bool → Value
  | none => .null
  | some b => .int (if b then 1 else 0)

/-- Either holds, as far as it is known. -/
def either : Option Bool → Option Bool → Option Bool
  | some true, _ => some true
  | _, some true => some true
  | some false, some false => some false
  | _, _ => none

/-- Both hold, as far as it is known. -/
def both : Option Bool → Option Bool → Option Bool
  | some false, _ => some false
  | _, some false => some false
  | some true, some true => some true
  | _, _ => none

/-- A comparison, which misses if a side misses. -/
def comparing (a b : Operand) (test : Ordering → Bool) : Value :=
  if a.value = .null ∨ b.value = .null then .null else ofTruth (some (test (a.compare b)))

/-- A number as a double. -/
def double? : Value → Option Double
  | .int n => some (.ofInt n)
  | .real x => some x
  | _ => none

/-- Arithmetic on two numbers: that of integers if both are integers and the result fits, and that
of doubles otherwise. -/
def arithmetic (f : Int → Int → Int) (g : Double → Double → Option Double) (a b : Value) : Value :=
  let onDoubles (x y : Value) : Value :=
    ((do g (← double? x) (← double? y) : Option Double).map Value.real).getD .null
  match a.number, b.number with
  | .int m, .int n =>
    if Width.int64.holds (f m n) then .int (f m n) else onDoubles (.int m) (.int n)
  | x, y => onDoubles x y

/-- A division of integers that drops what is left of it, and has no value by zero. -/
def quotient (a b : Value) : Value :=
  match a.number, b.number with
  | .int _, .int 0 => .null
  | .int _, .int _ => arithmetic Int.tdiv Double.div? a b
  | _, _ => arithmetic (· + ·) Double.div? a b

/-- What is left of a division of integers; as a double if one side was one. -/
def remainder (a b : Value) : Value :=
  if a = .null ∨ b = .null ∨ b.integer = 0 then .null
  else
    let left := a.integer.tmod b.integer
    match a.number, b.number with
    | .int _, .int _ => .int left
    | _, _ => .real (.ofInt left)

/-- Two texts, unless one is missing. -/
def onTexts (f : String → String → Value) (a b : Value) : Value :=
  match a.shown?, b.shown? with
  | some s, some t => f s t
  | _, _ => .null

/-- The value of an operator between two operands. -/
def apply (op : Operator) (a b : Operand) : Value :=
  match op with
  | .or => ofTruth (either (truth? a.value) (truth? b.value))
  | .and => ofTruth (both (truth? a.value) (truth? b.value))
  | .eq => comparing a b (· == .eq)
  | .ne => comparing a b (· != .eq)
  | .same => ofTruth (some (a.same b))
  | .different => ofTruth (some !(a.same b))
  | .lt => comparing a b (· == .lt)
  | .le => comparing a b (· != .gt)
  | .gt => comparing a b (· == .gt)
  | .ge => comparing a b (· != .lt)
  | .add => arithmetic (· + ·) Double.add? a.value b.value
  | .sub => arithmetic (· - ·) Double.sub? a.value b.value
  | .mul => arithmetic (· * ·) Double.mul? a.value b.value
  | .div => quotient a.value b.value
  | .rem => remainder a.value b.value
  | .concat => onTexts (fun s t => .text (s ++ t)) a.value b.value
  | .like =>
    onTexts (fun s t => ofTruth (some (Text.isLike t.toList s.toList))) a.value b.value

/-- What is asked of a value. Nothing is known of a missing one but its kind. -/
def ask (p : Property) (v : Value) : Value :=
  match p, v with
  | .typeName, v =>
    .text (match v with
      | .null => "null"
      | .int _ => "integer"
      | .real _ => "real"
      | .text _ => "text")
  | _, .null => .null
  | .length, v => .int (((v.shown?.getD "").toList.takeWhile (· ≠ '\x00')).length)
  | .abs, .int n => .int n.natAbs
  | .abs, v =>
    match double? v.number with
    | none => .null
    | some x => .real (if x.isNegative then x.neg else x)
  | .lower, v => .text (Text.fold (v.shown?.getD ""))
  | .upper, v => .text (String.ofList ((v.shown?.getD "").toList.map Text.capital))

/-- A value brought to a kind, whatever is lost by it. -/
def convert (kind : Affinity) (v : Value) : Value :=
  match kind, v with
  | _, .null => .null
  | .integer, v => .int v.integer
  | .real, v => ((double? v.number).map Value.real).getD .null
  | .numeric, .text s => (Value.text s).number.wholeIfExact
  | .numeric, v => v
  | .text, v => Affinity.texted v
  | .blob, v => v

/-- The value of an expression, with the affinity of the column it is taken from. -/
def operand (scope : Scope) : Expr → Operand
  | .const v => ⟨v, none⟩
  | .column row name => (scope.column? row name).getD ⟨.null, none⟩
  | .columnOr name v => (scope.column? .current name).getD ⟨v, none⟩
  | .now form => ⟨form.value scope.clock, none⟩
  | .not e => ⟨ofTruth ((truth? (e.operand scope).value).map (!·)), none⟩
  | .neg e => ⟨arithmetic (· - ·) Double.sub? (.int 0) (e.operand scope).value, none⟩
  | .plain e => ⟨(e.operand scope).value, none⟩
  | .binary op left right => ⟨apply op (left.operand scope) (right.operand scope), none⟩
  | .cast e kind => ⟨convert kind (e.operand scope).value, some kind⟩
  | .call p e => ⟨ask p (e.operand scope).value, none⟩
  | .orElse first second =>
    let v := (first.operand scope).value
    ⟨if v = .null then (second.operand scope).value else v, none⟩

/-- The value of an expression. -/
def eval (scope : Scope) (e : Expr) : Value :=
  (e.operand scope).value

/-- The condition holds: its value is known and true. -/
def holds (scope : Scope) (e : Expr) : Bool :=
  truth? (e.eval scope) == some true

/-- The condition does not fail: its value is true or not known. -/
def notRefuted (scope : Scope) (e : Expr) : Bool :=
  truth? (e.eval scope) != some false

/-! ## Columns -/

/-- The first column that the surroundings do not have. -/
def unknown? (has : Columns) : Expr → Option String
  | .const _ | .columnOr _ _ | .now _ => none
  | .column row name => if has row name then none else some name
  | .not e | .neg e | .plain e | .cast e _ | .call _ e => e.unknown? has
  | .binary _ left right | .orElse left right => (left.unknown? has).or (right.unknown? has)

/-- A column is taken from a row by that name. -/
def mentions (table : String) : Expr → Bool
  | .const _ | .columnOr _ _ | .now _ => false
  | .column .current _ => false
  | .column (.named n) _ => Text.sameFold n table
  | .not e | .neg e | .plain e | .cast e _ | .call _ e => e.mentions table
  | .binary _ left right | .orElse left right => left.mentions table || right.mentions table

/-- The expression with the rows of one name taken by another. -/
def retitle (table name : String) : Expr → Expr
  | .column (.named n) c => .column (.named (if Text.sameFold n table then name else n)) c
  | .not e => .not (e.retitle table name)
  | .neg e => .neg (e.retitle table name)
  | .plain e => .plain (e.retitle table name)
  | .cast e kind => .cast (e.retitle table name) kind
  | .call p e => .call p (e.retitle table name)
  | .orElse first second => .orElse (first.retitle table name) (second.retitle table name)
  | .binary op left right => .binary op (left.retitle table name) (right.retitle table name)
  | e => e

/-- The expression asks for a column, or has a text in it that would be one if it could. -/
def asksColumn : Expr → Bool
  | .column _ _ | .columnOr _ (.text _) => true
  | .const _ | .columnOr _ _ | .now _ => false
  | .not e | .neg e | .plain e | .cast e _ | .call _ e => e.asksColumn
  | .binary _ left right | .orElse left right => left.asksColumn || right.asksColumn

/-- The expression is a constant as it is written, but for signs and kinds in front of it. -/
def isWritten : Expr → Bool
  | .const _ | .columnOr _ _ => true
  | .neg e | .plain e | .cast e _ => e.isWritten
  | _ => false

/-- The value depends on the moment of running. -/
def asksClock : Expr → Bool
  | .now _ => true
  | .const _ | .column _ _ | .columnOr _ _ => false
  | .not e | .neg e | .plain e | .cast e _ | .call _ e => e.asksClock
  | .binary _ left right | .orElse left right => left.asksClock || right.asksClock

end Expr

end AccountHistory.Sql
