import AccountHistory.Number.Integer

/-!
# The shortest decimal of a double

A double stands for the interval of reals that round to it. Its shortest decimal is the one with
the fewest digits inside that interval and, among those, the one nearest to the double.

* `Binary` is a finite positive double as `mantissa * 2 ^ exponent`, decoded from its bits;
* `Binary.shortest` searches the decimal grids of one digit, two digits and so on, looking only at
  the two neighbours of the value on each grid, in exact natural arithmetic;
* `Notation` says how digits and exponent are written out.
-/

namespace AccountHistory.Number

/-! ## Doubles as binary fractions -/

/-- A finite positive double: `mantissa * 2 ^ exponent`. -/
structure Binary where
  /-- the integral significand -/
  mantissa : Nat
  /-- the power of two it is scaled by -/
  exponent : Int
  /-- the next smaller double is only half as far away as the next larger one -/
  narrowBelow : Bool
  deriving DecidableEq, Repr

/-- The finite number with the given bits, without its sign. -/
def Binary.ofBits (bits : Nat) : Binary :=
  let fraction : Nat := bits % twoPow 52
  let biased : Nat := bits / twoPow 52 % twoPow 11
  if biased == 0 then ⟨fraction, -1074, false⟩
  else ⟨fraction + twoPow 52, (biased : Int) - 1075, fraction == 0 && 1 < biased⟩

/-! ## The grids -/

/-- Digits and a decimal exponent: the number `digits * 10 ^ exponent`. -/
structure Digits where
  /-- the digits as one number -/
  digits : Nat
  /-- the power of ten they are scaled by -/
  exponent : Int
  deriving DecidableEq, Repr

/-- `2 ^ k`, and `1` for a negative `k`. -/
def twoTo (k : Int) : Nat := twoPow k.toNat

/-- `10 ^ k`, and `1` for a negative `k`. -/
def tenTo (k : Int) : Nat := tenPow k.toNat

/-- `quarters / 4 * 2 ^ q` on the grid of step `10 ^ k`, as a fraction. -/
def onGrid (quarters : Nat) (q k : Int) : Nat × Nat :=
  (quarters * twoTo (q - 2) * tenTo (-k), twoTo (2 - q) * tenTo k)

/-- The point of the grid of step `10 ^ k` that lies within the interval of `b`, the nearer one if
both neighbours of `b` do, and the even one of two equally near. -/
def Binary.onGrid? (b : Binary) (k : Int) : Option Digits :=
  let den := (onGrid 1 b.exponent k).2
  let value := (onGrid (4 * b.mantissa) b.exponent k).1
  let least := (onGrid (4 * b.mantissa - (if b.narrowBelow then 1 else 2)) b.exponent k).1
  let greatest := (onGrid (4 * b.mantissa + 2) b.exponent k).1
  let closed := b.mantissa % 2 = 0
  let inside (d : Nat) : Bool :=
    if closed then least ≤ d * den && d * den ≤ greatest else least < d * den && d * den < greatest
  let below := value / den
  let above := below + 1
  let toBelow := value - below * den
  let toAbove := above * den - value
  match inside below && below != 0, inside above with
  | true, true =>
    if toBelow < toAbove || (toBelow == toAbove && below % 2 == 0) then some ⟨below, k⟩
    else some ⟨above, k⟩
  | true, false => some ⟨below, k⟩
  | false, true => some ⟨above, k⟩
  | false, false => none

/-- The first grid with a point inside the interval, from step `10 ^ k` downwards. -/
def Binary.search (b : Binary) (k : Int) : Nat → Digits
  | 0 => ⟨b.mantissa, k⟩
  | fuel + 1 =>
    match b.onGrid? k with
    | some d => d
    | none => b.search (k - 1) fuel

/-- Digits without their trailing zeros. -/
def Digits.strip (d : Digits) : Nat → Digits
  | 0 => d
  | fuel + 1 =>
    if d.digits ≠ 0 ∧ d.digits % 10 = 0 then Digits.strip ⟨d.digits / 10, d.exponent + 1⟩ fuel
    else d

/-- The shortest decimal of a double. The search starts at a step above the value, where the double
has no point, and passes through at most twenty grids. -/
def Binary.shortest (b : Binary) : Digits :=
  let magnitude := ((b.mantissa.log2 : Int) + b.exponent) * 30103 / 100000
  (b.search (magnitude + 2) 24).strip 24

/-! ## Writing out -/

/-- How a decimal is written: between which powers of ten of its leading digit the digits stand in
their places, beyond which an exponent follows. -/
structure Notation where
  /-- the least exponent of the leading digit that is written in places -/
  leastPlaced : Int
  /-- the greatest exponent of the leading digit that is written in places -/
  greatestPlaced : Int
  deriving DecidableEq, Repr

/-- `n` zeros. -/
def zeros (n : Nat) : List Char := List.replicate n '0'

/-- Writes a decimal: in places always with a point and a digit after it, otherwise with the point
after the leading digit and a signed exponent. -/
def Notation.write (form : Notation) (d : Digits) : List Char :=
  let digits := Nat.toDigits 10 d.digits
  let leading : Int := d.exponent + digits.length - 1
  if form.leastPlaced ≤ leading ∧ leading ≤ form.greatestPlaced then
    if 0 ≤ d.exponent then digits ++ zeros d.exponent.toNat ++ ['.', '0']
    else if 0 ≤ leading then
      digits.take (leading.toNat + 1) ++ '.' :: digits.drop (leading.toNat + 1)
    else '0' :: '.' :: zeros (-leading - 1).toNat ++ digits
  else
    let mark := if 0 ≤ leading then ['e', '+'] else ['e', '-']
    let point := if digits.length = 1 then digits else digits.take 1 ++ '.' :: digits.drop 1
    point ++ mark ++ Nat.toDigits 10 leading.natAbs

end AccountHistory.Number
