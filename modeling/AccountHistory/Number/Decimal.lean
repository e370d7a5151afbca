import AccountHistory.Number.Double

/-!
# Decimals and doubles

How a decimal becomes a double, and how a double is written with fifteen digits. Both scale by
powers of ten in numbers of 64 binary digits, in steps of a hundred, ten and one powers, and cut to
the width asked for at the end. What they give is nearly always the nearest, and it is always the
same.
-/

namespace AccountHistory.Number

/-! ## Scaling -/

/-- A number that is not negative, `mantissa * 2 ^ exponent`. -/
structure Scaled where
  /-- the integral significand -/
  mantissa : Nat
  /-- the power of two it is scaled by -/
  exponent : Int
  deriving DecidableEq, Repr

namespace Scaled

/-- The binary digits that scaling keeps. -/
def digits : Nat := 64

/-- Nothing is cut off because it is too small. -/
def unbounded : Int := -100000

/-- The number cut to the digits that scaling keeps. -/
def cut (m : Nat) (q : Int) : Scaled :=
  let (m, q) := roundOff digits unbounded m q
  ⟨m, q⟩

/-- `10 ^ k`, cut. -/
def power (k : Nat) : Scaled :=
  cut (tenPow k) 0

/-- `1 / 10 ^ k`, cut. What is left of the division counts as one more binary digit, so that cutting
sees on which side of halfway the quotient lies. -/
def reciprocal (k : Nat) : Scaled :=
  let shift := (tenPow k).log2 + digits + 2
  let quotient := twoPow shift / tenPow k
  let more := if twoPow shift % tenPow k = 0 then 0 else 1
  cut (2 * quotient + more) (-(shift : Int) - 1)

/-- The product, cut. -/
def mul (x y : Scaled) : Scaled :=
  cut (x.mantissa * y.mantissa) (x.exponent + y.exponent)

/-- The product with `y` taken `n` times, cut each time. -/
def mulTimes (x y : Scaled) : Nat → Scaled
  | 0 => x
  | n + 1 => (x.mul y).mulTimes y n

/-- The number times `10 ^ e`. -/
def scale (x : Scaled) (e : Int) : Scaled :=
  let n := e.natAbs
  let step (k : Nat) : Scaled := if 0 ≤ e then power k else reciprocal k
  ((x.mulTimes (step 100) (n / 100)).mulTimes (step 10) (n % 100 / 10)).mulTimes (step 1) (n % 10)

/-- The number is below another. -/
def lt (x y : Scaled) : Bool :=
  Double.compareScaled x.mantissa x.exponent y.mantissa y.exponent == .lt

/-- The integral part. -/
def floor (x : Scaled) : Nat :=
  if 0 ≤ x.exponent then x.mantissa * twoPow x.exponent.toNat
  else x.mantissa / twoPow (-x.exponent).toNat

end Scaled

/-! ## Reading -/

/-- Digits of a decimal are taken up while the number they write is below this. -/
def digitLimit : Nat := 1844674407370955160

/-- The number that the digits ahead write on top of `acc`, as far as they are taken up, and the
digits left. -/
def takeDigits (acc : Nat) : List Char → Nat × List Char
  | [] => (acc, [])
  | c :: cs =>
    if acc < digitLimit then takeDigits (acc * 10 + (c.toNat - '0'.toNat)) cs else (acc, c :: cs)

/-- `s * 10 ^ e` with a smaller power, as far as that leaves `s` an integer of 64 binary digits. -/
def lessen (s : Nat) (e : Int) : Nat → Nat × Int
  | 0 => (s, e)
  | fuel + 1 =>
    if 0 < e ∧ s < digitLimit + 1 then lessen (s * 10) (e - 1) fuel
    else if e < 0 ∧ s % 10 = 0 then lessen (s / 10) (e + 1) fuel
    else (s, e)

/-- The greatest finite double. -/
def greatestDouble : Scaled := ⟨twoPow 53 - 1, 971⟩

/-- The double that a decimal writes: digits before and behind the point, and an exponent, of which
no more than ten thousand counts. -/
def Double.ofDecimal (negative : Bool) (whole part : List Char) (exponent : Int) : Double :=
  let (s, left) := takeDigits 0 whole
  let (t, leftPart) := takeDigits s part
  let e : Int := max (-10000) (min 10000 exponent) + left.length - (part.length - leftPart.length)
  if t = 0 then Double.zero
  else
    let (m, e) := lessen t e 20
    let x := (Scaled.mk m 0).scale e
    if greatestDouble.lt x then .infinite negative else .ofScaled negative x.mantissa x.exponent

/-! ## Writing -/

/-- Multiplies by `step`, which changes the power of ten by `change`, as long as the test holds. -/
def scaleWhile (test : Scaled → Bool) (step : Scaled) (change : Int) :
    Nat → Scaled × Int → Scaled × Int
  | 0, x => x
  | fuel + 1, (x, e) =>
    if test x then scaleWhile test step change fuel (x.mul step, e + change) else (x, e)

/-- The leading digits of a number, at least seventeen of them, as an integer, and the power of ten
by which they are scaled. -/
def leadingDigits (x : Scaled) : Nat × Int :=
  let least (k : Nat) (x : Scaled) : Bool := !x.lt (Scaled.power k)
  let small (k : Nat) (x : Scaled) : Bool := x.lt (Scaled.power k)
  let (y, e) :=
    if least 19 x then
      scaleWhile (least 19) (Scaled.reciprocal 1) 1 11
        (scaleWhile (least 29) (Scaled.reciprocal 10) 10 11
          (scaleWhile (least 119) (Scaled.reciprocal 100) 100 4 (x, 0)))
    else
      scaleWhile (small 17) (Scaled.power 1) (-1) 11
        (scaleWhile (small 7) (Scaled.power 10) (-10) 11
          (scaleWhile (fun x => x.lt (Scaled.reciprocal 97)) (Scaled.power 100) (-100) 4 (x, 0)))
  (y.floor, e)

/-- The first `count` digits of a number, the zeros at the end left out, and the power of ten of the
first. The digit behind the last one decides which way it is rounded. -/
def roundedDigits (count : Nat) (x : Scaled) : List Char × Int :=
  let (n, e) := leadingDigits x
  let ds := Nat.toDigits 10 n
  let kept := (ds.take count).foldl (fun acc c => acc * 10 + (c.toNat - '0'.toNat)) 0
  let up := (ds[count]?).any fun c => '5' ≤ c
  let rounded := Nat.toDigits 10 (if up then kept + 1 else kept)
  let first : Int := (ds.length : Int) - 1 + e + (rounded.length - min count ds.length)
  ((rounded.reverse.dropWhile (· == '0')).reverse, first)

/-- Digits with a point behind the first `n`, and a digit on either side of it. -/
def withPoint (n : Nat) (digits : List Char) : List Char :=
  let whole := digits.take n ++ List.replicate (n - digits.length) '0'
  let part := digits.drop n
  whole ++ '.' :: (if part.isEmpty then ['0'] else part)

/-- The text of a double in so many digits: in places, or with an exponent of two digits or more. An
infinite one has a name. -/
def Double.written (count : Nat) : Double → String
  | .infinite negative => if negative then "-Inf" else "Inf"
  | .finite 0 _ => "0.0"
  | .finite m q =>
    let (digits, first) := roundedDigits count ⟨m.natAbs, q⟩
    let written :=
      if -4 ≤ first ∧ first ≤ count - 1 then
        if 0 ≤ first then withPoint (first.toNat + 1) digits
        else '0' :: '.' :: (List.replicate (-first - 1).toNat '0' ++ digits)
      else
        let power := Nat.toDigits 10 first.natAbs
        withPoint 1 digits ++ 'e' :: (if first < 0 then '-' else '+')
          :: (List.replicate (2 - power.length) '0' ++ power)
    String.ofList (if m < 0 then '-' :: written else written)

/-- The text of a double, in fifteen digits. -/
def Double.text (x : Double) : String :=
  x.written 15

end AccountHistory.Number
