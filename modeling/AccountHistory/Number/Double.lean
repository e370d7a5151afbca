import AccountHistory.Number.Integer

/-!
# Doubles

A double is a number with 53 binary digits, `mantissa * 2 ^ exponent`, or infinite. It is kept
exactly: the mantissa of a finite double other than zero is odd, so that equal doubles are equal
data, and the order of doubles is that of the numbers they are.

* `roundOff` cuts a number to so many binary digits, to the nearest and, halfway, to the even one;
* `Double.ofScaled` is the double nearest to `m * 2 ^ q`;
* sums, differences, products and quotients are the exact ones, rounded once. They have no value
  where infinities cancel, and a division by zero has none.
-/

namespace AccountHistory.Number

/-! ## Rounding -/

/-- `m * 2 ^ q` cut to `bits` binary digits and to multiples of `2 ^ least`, as another such
product: to the nearest, and from halfway to the even one. -/
def roundOff (bits : Nat) (least : Int) (m : Nat) (q : Int) : Nat × Int :=
  let dropped := max (m.log2 + 1 - bits) (least - q).toNat
  let unit := twoPow dropped
  let below := m / unit
  let rest := 2 * (m % unit)
  let up := unit < rest || (rest == unit && below % 2 == 1)
  (if up then below + 1 else below, q + dropped)

/-- `m * 2 ^ q` with all factors of two moved into the power, of which there are at most `fuel`. -/
def oddPart (fuel m : Nat) (q : Int) : Nat × Int :=
  match fuel with
  | 0 => (m, q)
  | fuel + 1 => if m % 2 = 0 then oddPart fuel (m / 2) (q + 1) else (m, q)

/-! ## Doubles -/

/-- A double. -/
inductive Double where
  /-- `mantissa * 2 ^ exponent`; the mantissa is odd, or both are zero -/
  | finite (mantissa exponent : Int)
  /-- beyond all numbers -/
  | infinite (negative : Bool)
  deriving DecidableEq, Repr, Inhabited

namespace Double

/-- The number of binary digits. -/
def digits : Nat := 53

/-- The power of two of which every finite double is a multiple. -/
def leastExponent : Int := -1074

/-- The power of two that no finite double reaches. -/
def greatestExponent : Int := 1024

/-- Zero. -/
def zero : Double := .finite 0 0

/-- The double nearest to `m * 2 ^ q`, or to its negative. -/
def ofScaled (negative : Bool) (m : Nat) (q : Int) : Double :=
  let (m, q) := roundOff digits leastExponent m q
  if m = 0 then zero
  else if greatestExponent < (m.log2 : Int) + 1 + q then .infinite negative
  else
    let (m, q) := oddPart (digits + 1) m q
    .finite (if negative then -(m : Int) else m) q

/-- The double nearest to `n / d`, or to its negative. What is left of the division counts as one
more binary digit. -/
def ofRatio (negative : Bool) (n d : Nat) : Double :=
  let shift := d.log2 + digits + 2
  let quotient := n * twoPow shift / d
  let more := if n * twoPow shift % d = 0 then 0 else 1
  ofScaled negative (2 * quotient + more) (-(shift : Int) - 1)

/-- The double nearest to an integer. -/
def ofInt (n : Int) : Double :=
  ofScaled (n < 0) n.natAbs 0

/-- The integer that a double is, if it is one. -/
def whole? : Double → Option Int
  | .finite m q => if 0 ≤ q then some (m * twoPow q.toNat) else none
  | .infinite _ => none

/-- The double without its places behind the point, if it is finite. -/
def truncated? : Double → Option Int
  | .finite m q =>
    some (if 0 ≤ q then m * twoPow q.toNat else m.tdiv (twoPow (-q).toNat))
  | .infinite _ => none

/-- The double is below zero. -/
def isNegative : Double → Bool
  | .finite m _ => m < 0
  | .infinite negative => negative

/-! ## Order -/

/-- The order of the numbers `m * 2 ^ p` and `n * 2 ^ q`. -/
def compareScaled (m p n q : Int) : Ordering :=
  let least := min p q
  compare (m * twoPow (p - least).toNat) (n * twoPow (q - least).toNat)

/-- The order of doubles. -/
def order : Double → Double → Ordering
  | .finite m p, .finite n q => compareScaled m p n q
  | .finite _ _, .infinite negative => if negative then .gt else .lt
  | .infinite negative, .finite _ _ => if negative then .lt else .gt
  | .infinite a, .infinite b => if a = b then .eq else if a then .lt else .gt

/-- The order of an integer and a double, by the numbers they are. -/
def orderInt (n : Int) (x : Double) : Ordering :=
  order (.finite n 0) x

/-! ## Arithmetic -/

/-- The negative double. -/
def neg : Double → Double
  | .finite m q => .finite (-m) q
  | .infinite negative => .infinite (!negative)

/-- The sum; `none` of infinities of both signs. -/
def add? : Double → Double → Option Double
  | .finite m p, .finite n q =>
    let least := min p q
    let sum := m * twoPow (p - least).toNat + n * twoPow (q - least).toNat
    some (ofScaled (sum < 0) sum.natAbs least)
  | .finite _ _, y => some y
  | x, .finite _ _ => some x
  | .infinite a, .infinite b => if a = b then some (.infinite a) else none

/-- The difference; `none` of infinities of one sign. -/
def sub? (x y : Double) : Option Double :=
  add? x (neg y)

/-- The product; `none` of zero and an infinity. -/
def mul? : Double → Double → Option Double
  | .finite m p, .finite n q => some (ofScaled (m * n < 0) (m * n).natAbs (p + q))
  | x, y =>
    if x = zero ∨ y = zero then none else some (.infinite (x.isNegative != y.isNegative))

/-- The quotient; `none` of a division by zero and of two infinities. -/
def div? : Double → Double → Option Double
  | .finite m p, .finite n q =>
    if n = 0 then none
    else
      some (ofRatio (m * n < 0) (m.natAbs * twoPow (p - q).toNat) (n.natAbs * twoPow (q - p).toNat))
  | .finite _ _, .infinite _ => some zero
  | .infinite negative, .finite n _ =>
    if n = 0 then none else some (.infinite (negative != (n < 0 : Bool)))
  | .infinite _, .infinite _ => none

end Double

end AccountHistory.Number
