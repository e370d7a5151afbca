import AccountHistory.Number.Decimal

/-!
# Numerals

How a text writes a number: a sign, digits around a point, and an exponent. Blanks may stand on
either side. What cannot be read on is left: a text that only begins like a number has a number in
front.
-/

namespace AccountHistory.Sql

open Number

/-- A number as it is written. -/
structure Numeral where
  /-- a minus sign stands in front -/
  negative : Bool
  /-- the digits before the point -/
  whole : List Char
  /-- the digits behind the point -/
  part : List Char
  /-- the power of ten -/
  exponent : Int
  /-- there is neither a point nor an exponent -/
  isWhole : Bool
  deriving DecidableEq, Repr

namespace Numeral

/-- The blanks around a numeral. -/
def isBlank (c : Char) : Bool :=
  c == ' ' || ('\t' ≤ c && c ≤ '\r')

/-- The number that digits write. -/
def ofDigits (cs : List Char) : Nat :=
  cs.foldl (fun acc c => acc * 10 + (c.toNat - '0'.toNat)) 0

/-- Reads a sign, if one is ahead, and says whether it is the minus sign. -/
def readSign : List Char → Bool × List Char
  | '-' :: cs => (true, cs)
  | '+' :: cs => (false, cs)
  | cs => (false, cs)

/-- Reads an exponent, if the whole of one is ahead. -/
def readExponent (cs : List Char) : Option (Int × List Char) :=
  match cs with
  | c :: r =>
    let (negative, r) := readSign r
    let digits := r.takeWhile isDigit
    if (c == 'e' || c == 'E') && !digits.isEmpty then
      some (if negative then -(ofDigits digits : Int) else ofDigits digits, r.dropWhile isDigit)
    else none
  | [] => none

/-- Reads a numeral behind blanks; there must be a digit on one side of the point. -/
def read (cs : List Char) : Option (Numeral × List Char) :=
  let (negative, cs) := readSign (cs.dropWhile isBlank)
  let whole := cs.takeWhile isDigit
  let (part, hasPoint, cs) : List Char × Bool × List Char :=
    match cs.dropWhile isDigit with
    | '.' :: r => (r.takeWhile isDigit, true, r.dropWhile isDigit)
    | r => ([], false, r)
  if whole.isEmpty && part.isEmpty then none
  else
    match readExponent cs with
    | some (exponent, cs) => some (⟨negative, whole, part, exponent, false⟩, cs)
    | none => some (⟨negative, whole, part, 0, !hasPoint⟩, cs)

/-- The numeral that is all of a text, blanks apart. -/
def ofText? (s : String) : Option Numeral :=
  match read s.toList with
  | some (n, cs) => if cs.all isBlank then some n else none
  | none => none

/-- The numeral in front of a text. -/
def inFront? (s : String) : Option Numeral :=
  (read s.toList).map Prod.fst

/-- The number before the point. -/
def integer (n : Numeral) : Int :=
  if n.negative then -(ofDigits n.whole : Int) else ofDigits n.whole

/-- The double that is meant. -/
def double (n : Numeral) : Double :=
  .ofDecimal n.negative n.whole n.part n.exponent

end Numeral

end AccountHistory.Sql
