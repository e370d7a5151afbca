/-!
# Reading integers of a given width

Settings, file names and documents hold integers in decimal. A reading either gives a number within
the width asked for or names the first thing that stands in the way, from left to right: a text
without digits, a character that is no digit, or a digit that takes the number out of its width.

* one sign may stand in front: `+` always, `-` where the width holds negative numbers;
* leading zeros are allowed, and only the ASCII digits are digits;
* `Width.read_holds` says that what is read lies within the width.
-/

namespace AccountHistory

/-! ## Widths -/

/-- The numbers a stored or configured integer may take. -/
structure Width where
  /-- the least number -/
  least : Int
  /-- the greatest number -/
  greatest : Int
  deriving DecidableEq, Repr

namespace Width

/-- Signed numbers of 64 bits: timestamps, identifiers, counts in documents. -/
def int64 : Width := ⟨-9223372036854775808, 9223372036854775807⟩

/-- Unsigned numbers of 64 bits. -/
def word64 : Width := ⟨0, 18446744073709551615⟩

/-- Unsigned numbers of 32 bits: schema versions, call ceilings. -/
def word32 : Width := ⟨0, 4294967295⟩

/-- Unsigned numbers of 8 bits. -/
def word8 : Width := ⟨0, 255⟩

/-- `n` is one of the numbers of the width. -/
def holds (w : Width) (n : Int) : Bool :=
  w.least ≤ n && n ≤ w.greatest

end Width

/-! ## Digits -/

/-- The value of an ASCII digit. -/
def digit? (c : Char) : Option Nat :=
  if '0' ≤ c ∧ c ≤ '9' then some (c.toNat - '0'.toNat) else none

/-- The character is an ASCII digit. -/
def isDigit (c : Char) : Bool :=
  '0' ≤ c && c ≤ '9'

/-- The value of a hexadecimal digit. -/
def hexDigit? (c : Char) : Option Nat :=
  if '0' ≤ c ∧ c ≤ '9' then some (c.toNat - '0'.toNat)
  else if 'a' ≤ c ∧ c ≤ 'f' then some (c.toNat - 'a'.toNat + 10)
  else if 'A' ≤ c ∧ c ≤ 'F' then some (c.toNat - 'A'.toNat + 10)
  else none

/-- The character is a hexadecimal digit. -/
def isHexDigit (c : Char) : Bool :=
  (hexDigit? c).isSome

/-- The number that hexadecimal digits write. -/
def ofHexDigits (cs : List Char) : Nat :=
  cs.foldl (fun acc c => acc * 16 + (hexDigit? c).getD 0) 0

/-! ## Powers -/

/-- The number written as a one and `n` zeros. -/
def tenPow (n : Nat) : Nat := Nat.pow 10 n

/-- The number `2 * 2 * …` of `n` factors. -/
def twoPow (n : Nat) : Nat := Nat.pow 2 n

/-! ## Reading -/

/-- Why a text is no integer of the width asked for. -/
inductive IntegerFault where
  /-- there is no character at all -/
  | empty
  /-- a character that is no digit, or a sign without digits -/
  | invalidDigit
  /-- the number exceeds the greatest of its width -/
  | tooLarge
  /-- the number falls below the least of its width -/
  | tooSmall
  deriving DecidableEq, Repr

/-- The wording of a fault. -/
def IntegerFault.message : IntegerFault → String
  | .empty => "cannot parse integer from empty string"
  | .invalidDigit => "invalid digit found in string"
  | .tooLarge => "number too large to fit in target type"
  | .tooSmall => "number too small to fit in target type"

namespace Width

/-- Reads digits on top of `acc`, upwards. -/
def readUp (w : Width) (acc : Int) : List Char → Except IntegerFault Int
  | [] => .ok acc
  | c :: cs =>
    match digit? c with
    | none => .error .invalidDigit
    | some d =>
      if acc * 10 + d ≤ w.greatest then readUp w (acc * 10 + d) cs else .error .tooLarge

/-- Reads digits below `acc`, downwards, so that the least number is reached without its negation.
-/
def readDown (w : Width) (acc : Int) : List Char → Except IntegerFault Int
  | [] => .ok acc
  | c :: cs =>
    match digit? c with
    | none => .error .invalidDigit
    | some d =>
      if w.least ≤ acc * 10 - d then readDown w (acc * 10 - d) cs else .error .tooSmall

/-- Reads an optional sign and digits. -/
def readChars (w : Width) : List Char → Except IntegerFault Int
  | [] => .error .empty
  | c :: cs =>
    if c = '+' then
      if cs.isEmpty then .error .invalidDigit else readUp w 0 cs
    else if c = '-' ∧ w.least < 0 then
      if cs.isEmpty then .error .invalidDigit else readDown w 0 cs
    else readUp w 0 (c :: cs)

/-- Reads an integer of the width from the whole of `s`. -/
def read (w : Width) (s : String) : Except IntegerFault Int :=
  readChars w s.toList

/-- The integer of the width that `s` is, if it is one. -/
def read? (w : Width) (s : String) : Option Int :=
  (w.read s).toOption

/-! ## Laws -/

theorem holds_iff {w : Width} {n : Int} : w.holds n = true ↔ w.least ≤ n ∧ n ≤ w.greatest := by
  rw [holds, Bool.and_eq_true, decide_eq_true_eq, decide_eq_true_eq]

theorem readUp_bounds {w : Width} {cs : List Char} {acc n : Int}
    (h : w.readUp acc cs = .ok n) (h0 : 0 ≤ acc) (h1 : acc ≤ w.greatest) :
    0 ≤ n ∧ n ≤ w.greatest := by
  induction cs generalizing acc with
  | nil => cases h; exact ⟨h0, h1⟩
  | cons c cs ih =>
    simp only [readUp] at h
    split at h
    · cases h
    · split at h
      · next d _ hle => exact ih h (by omega) hle
      · cases h

theorem readDown_bounds {w : Width} {cs : List Char} {acc n : Int}
    (h : w.readDown acc cs = .ok n) (h0 : acc ≤ 0) (h1 : w.least ≤ acc) :
    n ≤ 0 ∧ w.least ≤ n := by
  induction cs generalizing acc with
  | nil => cases h; exact ⟨h0, h1⟩
  | cons c cs ih =>
    simp only [readDown] at h
    split at h
    · cases h
    · split at h
      · next d _ hle => exact ih h (by omega) hle
      · cases h

/-- **Range.** What is read lies within the width, if zero does. -/
theorem read_holds {w : Width} {s : String} {n : Int} (h : w.read s = .ok n)
    (hz : w.least ≤ 0 ∧ 0 ≤ w.greatest) : w.least ≤ n ∧ n ≤ w.greatest := by
  rcases hz with ⟨hl, hg⟩
  unfold read readChars at h
  split at h
  · cases h
  · split at h
    · split at h
      · cases h
      · have := readUp_bounds h (Int.le_refl 0) hg; omega
    · split at h
      · split at h
        · cases h
        · have := readDown_bounds h (Int.le_refl 0) hl; omega
      · have := readUp_bounds h (Int.le_refl 0) hg; omega

end Width

end AccountHistory
