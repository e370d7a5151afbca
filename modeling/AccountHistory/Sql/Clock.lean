import AccountHistory.Sql.Value

/-!
# The moment of running

A statement may ask for the moment at which it runs, in one of four forms: the days of the
astronomers' count, which begins at noon, or the date, the time and both of them as texts. All are
functions of the milliseconds since 1970.
-/

namespace AccountHistory.Sql

open Number

/-- A form of the moment. -/
inductive ClockForm where
  /-- days and parts of a day, as a number -/
  | days
  /-- the date -/
  | date
  /-- the time -/
  | time
  /-- date and time -/
  | dateTime
  deriving DecidableEq, Repr

namespace ClockForm

/-- The milliseconds of a day. -/
def dayLength : Int := 86400000

/-- The milliseconds of the astronomers' count at the beginning of 1970. -/
def countedBefore : Int := 210866760000000

/-- A number in at least so many digits. -/
def padded (width n : Nat) : List Char :=
  let digits := Nat.toDigits 10 n
  List.replicate (width - digits.length) '0' ++ digits

/-- Year, month and day of a date given in days since the first of March of the year zero. A year
that begins in March ends with the day that only leap years have. -/
def civil (days : Nat) : Nat × Nat × Nat :=
  let era := days / 146097
  let inEra := days % 146097
  let yearOfEra := (inEra - inEra / 1460 + inEra / 36524 - inEra / 146096) / 365
  let inYear := inEra - (365 * yearOfEra + yearOfEra / 4 - yearOfEra / 100)
  let shifted := (5 * inYear + 2) / 153
  let day := inYear - (153 * shifted + 2) / 5 + 1
  let month := if shifted < 10 then shifted + 3 else shifted - 9
  (yearOfEra + era * 400 + (if month ≤ 2 then 1 else 0), month, day)

/-- The days from the first of March of the year zero to the beginning of 1970. -/
def daysBefore : Int := 719468

/-- The date of a moment. -/
def dateText (clock : Int) : List Char :=
  let (year, month, day) := civil (clock.fdiv dayLength + daysBefore).toNat
  padded 4 year ++ '-' :: padded 2 month ++ '-' :: padded 2 day

/-- The time of a moment. -/
def timeText (clock : Int) : List Char :=
  let seconds := (clock.fmod dayLength).toNat / 1000
  padded 2 (seconds / 3600) ++ ':' :: padded 2 (seconds / 60 % 60) ++ ':' :: padded 2 (seconds % 60)

/-- The value of a form. -/
def value (clock : Int) : ClockForm → Value
  | .days =>
    let counted := clock + countedBefore
    .real (.ofRatio (counted < 0) counted.natAbs dayLength.natAbs)
  | .date => .text (String.ofList (dateText clock))
  | .time => .text (String.ofList (timeText clock))
  | .dateTime => .text (String.ofList (dateText clock ++ ' ' :: timeText clock))

end ClockForm

end AccountHistory.Sql
