import AccountHistory.Number.Integer

/-!
# Dates and times in TOML

A date, a time, or both with an offset, as a document writes them. Each part lies within the bounds
of the calendar and of the clock. `Moment.text` writes a moment in one way: the letters in capitals,
the fraction of a second without zeros at its end.
-/

namespace AccountHistory.Toml

/-- A day of the calendar. -/
structure Date where
  /-- the year -/
  year : Nat
  /-- the month, from 1 -/
  month : Nat
  /-- the day of the month, from 1 -/
  day : Nat
  deriving DecidableEq, Repr

/-- A time of the day. -/
structure ClockTime where
  /-- the hour -/
  hour : Nat
  /-- the minute -/
  minute : Nat
  /-- the second; a leap second is the sixtieth -/
  second : Option Nat
  /-- the digits of the fraction of a second, nine at most -/
  fraction : Option (List Char)
  deriving DecidableEq, Repr

/-- A date, a time, or both. -/
structure Moment where
  /-- the date -/
  date : Option Date
  /-- the time -/
  time : Option ClockTime
  /-- how many minutes the clock is ahead; the outer `none` is a local time, the inner one the time
  of all zones -/
  offset : Option (Option Int)
  deriving DecidableEq, Repr

/-! ## The calendar -/

/-- The year has a day more. -/
def isLeapYear (year : Nat) : Bool :=
  year % 4 == 0 && (year % 100 != 0 || year % 400 == 0)

/-- The number of days of a month. -/
def daysIn (year month : Nat) : Nat :=
  if month = 2 then (if isLeapYear year then 29 else 28)
  else if [4, 6, 9, 11].contains month then 30
  else 31

/-! ## Reading -/

/-- The number that exactly `n` digits ahead write. -/
def readDigits (n : Nat) (cs : List Char) : Option (Nat × List Char) :=
  let digits := cs.take n
  if digits.length = n ∧ digits.all isDigit then
    some (digits.foldl (fun acc c => acc * 10 + (c.toNat - '0'.toNat)) 0, cs.drop n)
  else none

/-- What follows a character, if it is ahead. -/
def afterChar? (c : Char) : List Char → Option (List Char)
  | d :: cs => if d = c then some cs else none
  | [] => none

/-- Reads a date. -/
def readDate (cs : List Char) : Option (Date × List Char) := do
  let (year, cs) ← readDigits 4 cs
  let (month, cs) ← readDigits 2 (← afterChar? '-' cs)
  let (day, cs) ← readDigits 2 (← afterChar? '-' cs)
  if 1 ≤ month ∧ month ≤ 12 ∧ 1 ≤ day ∧ day ≤ daysIn year month then
    return (⟨year, month, day⟩, cs)
  else none

/-- Reads the fraction of a second, if a point is ahead. Digits beyond the ninth are dropped. -/
def readFraction (cs : List Char) : Option (Option (List Char) × List Char) :=
  match cs with
  | '.' :: r =>
    let digits := r.takeWhile isDigit
    if digits.isEmpty then none else some (some (digits.take 9), r.dropWhile isDigit)
  | _ => some (none, cs)

/-- Reads a time. The seconds may be left out. -/
def readTime (cs : List Char) : Option (ClockTime × List Char) := do
  let (hour, cs) ← readDigits 2 cs
  let (minute, cs) ← readDigits 2 (← afterChar? ':' cs)
  if 23 < hour ∨ 59 < minute then none
  else
    match cs with
    | ':' :: r =>
      let (second, r) ← readDigits 2 r
      let (fraction, r) ← readFraction r
      if 60 < second then none else return (⟨hour, minute, some second, fraction⟩, r)
    | _ => return (⟨hour, minute, none, none⟩, cs)

/-- The offset that is all of the characters; none at all is a local time. -/
def offset? (cs : List Char) : Option (Option (Option Int)) :=
  let ahead (sign : Int) (cs : List Char) : Option (Option (Option Int)) := do
    let (hours, cs) ← readDigits 2 cs
    let (minutes, cs) ← readDigits 2 (← afterChar? ':' cs)
    if cs.isEmpty ∧ hours ≤ 23 ∧ minutes ≤ 59 then
      return some (some (sign * (hours * 60 + minutes : Nat)))
    else none
  match cs with
  | [] => some none
  | ['Z'] | ['z'] => some (some none)
  | '+' :: r => ahead 1 r
  | '-' :: r => ahead (-1) r
  | _ => none

/-- The moment that characters write. -/
def Moment.ofChars? (cs : List Char) : Option Moment :=
  match readDate cs with
  | some (date, []) => some ⟨some date, none, none⟩
  | some (date, c :: r) => do
    if ['T', 't', ' '].all (· ≠ c) then none
    let (time, r) ← readTime r
    return ⟨some date, some time, ← offset? r⟩
  | none =>
    match readTime cs with
    | some (time, []) => some ⟨none, some time, none⟩
    | _ => none

/-! ## Writing -/

/-- A number with zeros before it, up to a width. -/
def padded (width n : Nat) : String :=
  let digits := Nat.toDigits 10 n
  String.ofList (List.replicate (width - digits.length) '0' ++ digits)

/-- A date. -/
def Date.text (d : Date) : String :=
  padded 4 d.year ++ "-" ++ padded 2 d.month ++ "-" ++ padded 2 d.day

/-- Digits without the zeros at the end; at least one. -/
def trimmed (digits : List Char) : List Char :=
  match (digits.reverse.dropWhile (· == '0')).reverse with
  | [] => ['0']
  | ds => ds

/-- A time. -/
def ClockTime.text (t : ClockTime) : String :=
  padded 2 t.hour ++ ":" ++ padded 2 t.minute
    ++ (t.second.map fun s => ":" ++ padded 2 s).getD ""
    ++ (t.fraction.map fun f => "." ++ String.ofList (trimmed f)).getD ""

/-- An offset. -/
def offsetText : Option Int → String
  | none => "Z"
  | some minutes =>
    (if minutes < 0 then "-" else "+") ++ padded 2 (minutes.natAbs / 60) ++ ":"
      ++ padded 2 (minutes.natAbs % 60)

/-- A moment. -/
def Moment.text (m : Moment) : String :=
  (m.date.map Date.text).getD "" ++ (if m.date.isSome && m.time.isSome then "T" else "")
    ++ (m.time.map ClockTime.text).getD "" ++ (m.offset.map offsetText).getD ""

end AccountHistory.Toml
