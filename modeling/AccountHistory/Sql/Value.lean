import AccountHistory.Sql.Numeral
import AccountHistory.Text.Letter

/-!
# Stored values

What a cell of a table holds: nothing, an integer of 64 bits, a double or a text. A column has an
affinity, which is the kind of value it prefers: a value is brought to that kind when it is stored
if nothing is lost by it, and is stored as it is otherwise.

Values are ordered with nothing first, numbers by size next, and texts by their characters last.
Before two values are compared, one may be brought to the kind that the other one's column prefers:
this is what `Operand` is for.
-/

namespace AccountHistory.Sql

open Number

/-! ## Values -/

/-- A stored value. -/
inductive Value where
  /-- no value -/
  | null
  /-- an integer of 64 bits -/
  | int (n : Int)
  /-- a double -/
  | real (x : Double)
  /-- a text -/
  | text (s : String)
  deriving DecidableEq, Repr, Inhabited

namespace Value

/-- The number that a numeral writes: an integer if it is written as one and fits, and a double
otherwise. -/
def ofNumeral (n : Numeral) : Value :=
  if n.isWhole && Width.int64.holds n.integer then .int n.integer else .real n.double

/-- The number that a text writes. -/
def ofText? (s : String) : Option Value :=
  (Numeral.ofText? s).map ofNumeral

/-- The number that stands for a value in arithmetic: for a text the one in front of it, or zero. -/
def number : Value → Value
  | .text s => ((Numeral.inFront? s).map ofNumeral).getD (.int 0)
  | v => v

/-- The integer of 64 bits nearest to `n`. -/
def clamped (n : Int) : Int :=
  max Width.int64.least (min Width.int64.greatest n)

/-- The integer that stands for a value where an integer is asked for: places behind the point are
dropped, also those in front of a text. -/
def integer : Value → Int
  | .null => 0
  | .int n => n
  | .real x =>
    clamped (x.truncated?.getD (if x.isNegative then Width.int64.least else Width.int64.greatest))
  | .text s => clamped (((Numeral.inFront? s).map Numeral.integer).getD 0)

/-- The text that stands for a value where a text is asked for. -/
def shown? : Value → Option String
  | .null => none
  | .int n => some (toString n)
  | .real x => some x.text
  | .text s => some s

/-- A double as an integer where it is one, the ends of the 64 bits excepted. -/
def wholeIfExact : Value → Value
  | .real x =>
    match x.whole? with
    | some n =>
      if Width.int64.least < n ∧ n < Width.int64.greatest then .int n else .real x
    | none => .real x
  | v => v

/-! ## Order -/

/-- The place of a kind of value in the order. -/
def rank : Value → Nat
  | .null => 0
  | .int _ | .real _ => 1
  | .text _ => 2

/-- The order of values. -/
def compare : Value → Value → Ordering
  | .int m, .int n => Ord.compare m n
  | .int m, .real y => Double.orderInt m y
  | .real x, .int n => (Double.orderInt n x).swap
  | .real x, .real y => x.order y
  | .text s, .text t => if s = t then .eq else if s < t then .lt else .gt
  | a, b => Ord.compare a.rank b.rank

/-- Two values are the same under the order. -/
def same (a b : Value) : Bool :=
  a.compare b == .eq

/-- The integer that a value is, if it is one. -/
def int? : Value → Option Int
  | .int n => some n
  | _ => none

end Value

/-! ## Affinity -/

/-- The kind of value that a column prefers. -/
inductive Affinity where
  /-- integers -/
  | integer
  /-- numbers -/
  | numeric
  /-- doubles -/
  | real
  /-- texts -/
  | text
  /-- no preference -/
  | blob
  deriving DecidableEq, Repr

namespace Affinity

/-- `part` occurs somewhere in `cs`. -/
def occursIn (part : List Char) : List Char → Bool
  | [] => part.isEmpty
  | c :: cs => part.isPrefixOf (c :: cs) || occursIn part cs

/-- The affinity that the name of a type gives: the first that applies of integers, texts, nothing
in particular, doubles, and numbers for any other name. -/
def ofTypeName (name : String) : Affinity :=
  let cs := name.toList.map Text.capital
  let has (s : String) : Bool := occursIn s.toList cs
  if has "INT" then .integer
  else if has "CHAR" || has "CLOB" || has "TEXT" then .text
  else if has "BLOB" || cs.isEmpty then .blob
  else if has "REAL" || has "FLOA" || has "DOUB" then .real
  else .numeric

/-- The affinity prefers numbers. -/
def isNumeric : Affinity → Bool
  | .integer | .numeric | .real => true
  | .text | .blob => false

/-- A text that writes a number as that number. -/
def numbered : Value → Value
  | .text s => (Value.ofText? s).getD (.text s)
  | v => v

/-- A number as a text. -/
def texted : Value → Value
  | .int n => .text (toString n)
  | .real x => .text x.text
  | v => v

/-- A value as a column of the affinity stores it. -/
def store (a : Affinity) (v : Value) : Value :=
  match a with
  | .integer | .numeric => (numbered v).wholeIfExact
  | .real =>
    match numbered v with
    | .int n => .real (.ofInt n)
    | w => w
  | .text => texted v
  | .blob => v

end Affinity

/-! ## Operands -/

/-- A value that is compared, with the affinity of the column it comes from, if it comes from one.
-/
structure Operand where
  /-- the value -/
  value : Value
  /-- the affinity of its column -/
  affinity : Option Affinity
  deriving DecidableEq, Repr

namespace Operand

/-- The affinity under which two operands are compared: numbers if either side prefers them, and the
preference of the one side that has any. -/
def common (a b : Operand) : Affinity :=
  match a.affinity, b.affinity with
  | some x, some y => if x.isNumeric || y.isNumeric then .numeric else .blob
  | some x, none | none, some x => x
  | none, none => .blob

/-- A value is a text. -/
def isText : Value → Bool
  | .text _ => true
  | _ => false

/-- The values of two operands, brought to one kind. -/
def aligned (a b : Operand) : Value × Value :=
  match common a b with
  | .integer | .numeric | .real => (Affinity.numbered a.value, Affinity.numbered b.value)
  | .text =>
    if isText a.value || isText b.value then (Affinity.texted a.value, Affinity.texted b.value)
    else (a.value, b.value)
  | .blob => (a.value, b.value)

/-- The order of two operands. -/
def compare (a b : Operand) : Ordering :=
  let (x, y) := aligned a b
  x.compare y

/-- Two operands are the same under their order. -/
def same (a b : Operand) : Bool :=
  a.compare b == .eq

end Operand

end AccountHistory.Sql
