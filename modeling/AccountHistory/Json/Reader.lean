import AccountHistory.Json.Value

/-!
# Reading JSON

A strict reader: one value with blank space around it and nothing after it, no trailing commas, no
leading zeros, no control characters in strings, no surrogate escape without its partner.

Who looks for certain fields only reads by a `Shape`. What stands under other names is dropped, so
that its strings need not write texts: half a pair of surrogates does no harm there.

Each reader of a part takes the characters ahead and gives the part and what is left, or nothing.
Values nest, so the readers of values carry a bound on the number of steps; every step consumes a
character, and `parse?` starts with a bound above the length of the text.
-/

namespace AccountHistory.Json

/-! ## Shapes -/

/-- What is asked of a value. -/
inductive Shape where
  /-- all of it is taken -/
  | taken
  /-- it is dropped -/
  | dropped
  /-- of an object, the fields of these names are taken in these shapes, and other fields are
  dropped; the items of an array are taken in the same shapes, in order -/
  | record (fields : List (String × Shape))
  deriving Inhabited

namespace Shape

/-- Strings write texts. -/
def needsText : Shape → Bool
  | .dropped => false
  | _ => true

/-- The shape of a field. -/
def field : Shape → String → Shape
  | .taken, _ => .taken
  | .dropped, _ => .dropped
  | .record fields, name => ((fields.find? fun f => f.1 == name).map Prod.snd).getD .dropped

/-- The shape of the first item of an array, and the shape of an array of the other items. -/
def item : Shape → Shape × Shape
  | .taken => (.taken, .taken)
  | .dropped => (.dropped, .dropped)
  | .record [] => (.taken, .taken)
  | .record (f :: fields) => (f.2, .record fields)

end Shape

/-! ## Blanks and words -/

/-- The blanks that may stand between the parts of a document. -/
def isGap (c : Char) : Bool :=
  c == ' ' || c == '\n' || c == '\t' || c == '\r'

/-- The characters after the blanks. -/
def skipGap (cs : List Char) : List Char :=
  cs.dropWhile isGap

/-- What follows `word`, if the characters ahead begin with it. -/
def afterWord? : List Char → List Char → Option (List Char)
  | [], cs => some cs
  | _ :: _, [] => none
  | w :: ws, c :: cs => if w = c then afterWord? ws cs else none

/-! ## Strings -/

/-- The number that four hexadecimal digits write. -/
def hexFour? (a b c d : Char) : Option Nat := do
  return (((← hexDigit? a) * 16 + (← hexDigit? b)) * 16 + (← hexDigit? c)) * 16 + (← hexDigit? d)

/-- The character that a one-letter escape stands for. -/
def shortEscape? (c : Char) : Option Char :=
  if c = '"' ∨ c = '\\' ∨ c = '/' then some c
  else if c = 'b' then some '\x08'
  else if c = 'f' then some '\x0c'
  else if c = 'n' then some '\n'
  else if c = 'r' then some '\r'
  else if c = 't' then some '\t'
  else none

/-- The first half of a pair of surrogates. -/
def isHighSurrogate (n : Nat) : Bool := 0xd800 ≤ n && n ≤ 0xdbff

/-- The second half of a pair of surrogates. -/
def isLowSurrogate (n : Nat) : Bool := 0xdc00 ≤ n && n ≤ 0xdfff

/-- The number written by the four hexadecimal digits ahead. -/
def codeUnit? : List Char → Option Nat
  | a :: b :: c :: d :: _ => hexFour? a b c d
  | _ => none

/-- The character that the digits after an escaped `u` stand for, and how many characters the escape
takes: a surrogate needs its partner in a second escape right behind it. -/
def unicodeEscape? (cs : List Char) : Option (Char × Nat) :=
  match codeUnit? cs with
  | none => none
  | some n =>
    if isLowSurrogate n then none
    else if isHighSurrogate n then
      match cs.drop 4 with
      | '\\' :: 'u' :: r =>
        match codeUnit? r with
        | none => none
        | some m =>
          if isLowSurrogate m then
            some (Char.ofNat (0x10000 + (n - 0xd800) * 0x400 + (m - 0xdc00)), 10)
          else none
      | _ => none
    else some (Char.ofNat n, 4)

/-- The character that stands for half a pair of surrogates. -/
def replacement : Char := '\ufffd'

/-- The character that the digits after an escaped `u` stand for in a string that is dropped. -/
def droppedEscape? (cs : List Char) : Option (Char × Nat) :=
  (codeUnit? cs).map fun n =>
    (if isLowSurrogate n || isHighSurrogate n then replacement else Char.ofNat n, 4)

/-- The character that an escape stands for, its backslash being read, and how many characters it
takes. -/
def escape? (needsText : Bool) : List Char → Option (Char × Nat)
  | [] => none
  | c :: cs =>
    if c = 'u' then
      (if needsText then unicodeEscape? cs else droppedEscape? cs).map fun (e, used) =>
        (e, used + 1)
    else (shortEscape? c).map fun e => (e, 1)

/-- Reads the rest of a string, the opening quote being read, behind `seen` (last character
first). -/
def readString (needsText : Bool) (seen : List Char) : List Char → Option (String × List Char)
  | [] => none
  | c :: cs =>
    if c = '"' then some (String.ofList seen.reverse, cs)
    else if c = '\\' then
      match escape? needsText cs with
      | none => none
      | some (e, used) => readString needsText (e :: seen) (cs.drop used)
    else if c.toNat < 0x20 then none
    else readString needsText (c :: seen) cs
termination_by cs => cs.length
decreasing_by all_goals simp; try omega

/-! ## Numbers -/

/-- The value of ASCII digits read as one number, on top of `acc`. -/
def digitsValue (acc : Nat) (ds : List Char) : Nat :=
  ds.foldl (fun n c => n * 10 + (c.toNat - '0'.toNat)) acc

/-- The digits of a significand that are kept, and how many are left out: a digit that takes the
number beyond 64 bits is dropped with all that follow it. -/
def cutDigits (acc : Nat) : List Char → Nat × List Char
  | [] => (acc, [])
  | c :: cs =>
    if acc * 10 + (c.toNat - '0'.toNat) ≤ Width.word64.greatest.toNat then
      cutDigits (acc * 10 + (c.toNat - '0'.toNat)) cs
    else (acc, c :: cs)

/-- `significand * 10 ^ exponent` in doubles: the two parts are rounded to doubles and multiplied or
divided. A number beyond the greatest double is infinite. -/
def scale (significand : Nat) (exponent : Int) : Float :=
  let x := Float.ofNat significand
  let pow (k : Nat) : Float := Float.ofScientific 1 false k
  if significand = 0 then 0.0
  else if 0 ≤ exponent then
    if exponent ≤ 308 then x * pow exponent.toNat else 1.0 / 0.0
  else if -308 ≤ exponent then x / pow (-exponent).toNat
  else if -616 ≤ exponent then x / pow 308 / pow (-exponent - 308).toNat
  else 0.0

/-- The parts of a written number. -/
structure Written where
  /-- a minus sign stands in front -/
  negative : Bool
  /-- the digits before the point -/
  whole : List Char
  /-- the digits after the point; `none` without a point -/
  fraction : Option (List Char)
  /-- the exponent; `none` without one -/
  exponent : Option Int

/-- The number that the parts write. -/
def Written.value (w : Written) : Json :=
  let n := digitsValue 0 w.whole
  if w.fraction.isNone && w.exponent.isNone && n ≤ Width.word64.greatest.toNat
      && !(w.negative && (n == 0 || n > 9223372036854775808)) then
    .int (if w.negative then -(n : Int) else n)
  else
    let (m, cut) := cutDigits 0 w.whole
    let fraction := w.fraction.getD []
    let (m, cutFraction) := cutDigits m fraction
    let e : Int := (cut.length : Int) + cutFraction.length - fraction.length
    let x := scale m (e + w.exponent.getD 0)
    .real (if w.negative then -x else x)

/-- Digits ahead, at least one. -/
def readDigits (cs : List Char) : Option (List Char × List Char) :=
  let ds := cs.takeWhile isDigit
  if ds.isEmpty then none else some (ds, cs.dropWhile isDigit)

/-- An exponent, if one is ahead: the outer `none` is an exponent without digits. -/
def readExponent (cs : List Char) : Option (Option Int × List Char) :=
  match cs with
  | c :: cs' =>
    if c = 'e' ∨ c = 'E' then
      let (negative, cs'') : Bool × List Char :=
        match cs' with
        | '+' :: r => (false, r)
        | '-' :: r => (true, r)
        | r => (false, r)
      (readDigits cs'').map fun (ds, r) =>
        (some (if negative then -(digitsValue 0 ds : Int) else digitsValue 0 ds), r)
    else some (none, cs)
  | [] => some (none, [])

/-- A fraction, if a point is ahead: the outer `none` is a point without digits. -/
def readFraction (cs : List Char) : Option (Option (List Char) × List Char) :=
  match cs with
  | '.' :: cs' => (readDigits cs').map fun (ds, r) => (some ds, r)
  | _ => some (none, cs)

/-- A number: no leading zero before another digit, digits on both sides of a point. -/
def readNumber (cs : List Char) : Option (Json × List Char) := do
  let (negative, cs) : Bool × List Char :=
    match cs with
    | '-' :: r => (true, r)
    | r => (false, r)
  let (whole, cs) ← readDigits cs
  if 1 < whole.length ∧ whole.head? = some '0' then none
  let (fraction, cs) ← readFraction cs
  let (exponent, cs) ← readExponent cs
  return ((Written.mk negative whole fraction exponent).value, cs)

/-! ## Values -/

mutual

/-- A value of a shape, blanks before it skipped. -/
def readValue : Nat → Shape → List Char → Option (Json × List Char)
  | 0, _, _ => none
  | fuel + 1, shape, cs =>
    match skipGap cs with
    | '"' :: r => (readString shape.needsText [] r).map fun (s, r) => (.str s, r)
    | '[' :: r =>
      match skipGap r with
      | ']' :: r' => some (.arr [], r')
      | r' => (readItems fuel shape r').map fun (items, r) => (.arr items, r)
    | '{' :: r =>
      match skipGap r with
      | '}' :: r' => some (.obj [], r')
      | r' => (readFields fuel shape r').map fun (fields, r) => (.obj fields, r)
    | 't' :: r => (afterWord? ['r', 'u', 'e'] r).map fun r => (.bool true, r)
    | 'f' :: r => (afterWord? ['a', 'l', 's', 'e'] r).map fun r => (.bool false, r)
    | 'n' :: r => (afterWord? ['u', 'l', 'l'] r).map fun r => (.null, r)
    | r => readNumber r

/-- The items of an array up to its closing bracket, at least one. -/
def readItems : Nat → Shape → List Char → Option (List Json × List Char)
  | 0, _, _ => none
  | fuel + 1, shape, cs => do
    let (item, r) ← readValue fuel shape.item.1 cs
    match skipGap r with
    | ',' :: r' =>
      let (items, r'') ← readItems fuel shape.item.2 r'
      return (item :: items, r'')
    | ']' :: r' => return ([item], r')
    | _ => none

/-- The fields of an object up to its closing brace, at least one. -/
def readFields : Nat → Shape → List Char → Option (List (String × Json) × List Char)
  | 0, _, _ => none
  | fuel + 1, shape, cs =>
    match skipGap cs with
    | '"' :: r => do
      let (key, r) ← readString shape.needsText [] r
      match skipGap r with
      | ':' :: r =>
        let (value, r) ← readValue fuel (shape.field key) r
        match skipGap r with
        | ',' :: r' =>
          let (fields, r'') ← readFields fuel shape r'
          return ((key, value) :: fields, r'')
        | '}' :: r' => return ([(key, value)], r')
        | _ => none
      | _ => none
    | _ => none

end

/-- The value of a shape that the whole of `s` is the text of. -/
def parseAs? (shape : Shape) (s : String) : Option Json :=
  match readValue (2 * s.length + 2) shape s.toList with
  | some (v, rest) => if (skipGap rest).isEmpty then some v else none
  | none => none

/-- The value that the whole of `s` is the text of. -/
def parse? (s : String) : Option Json :=
  parseAs? .taken s

end AccountHistory.Json
