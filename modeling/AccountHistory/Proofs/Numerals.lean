import AccountHistory.Number.Integer

/-!
# Numerals

Which texts are integers of a width, and which integers they are. The reader goes from digit to
digit and stops at the first that leads out of the width; here a numeral is said without the order
of reading:

* `IsDecimal` is a row of digits with its value, and `Width.Writes` puts a sign in front, `-` only
  where the width has negative numbers;
* `Width.Numeral` is a text that writes a number of the width.

What is read is what is written, and nothing else is read (`Width.readChars_eq_ok_iff`). The usual
form of a number is one of its numerals (`Width.numeral_toString`).
-/

namespace AccountHistory

/-! ## Rows of digits -/

/-- The characters write `n` in decimal: leading zeros are allowed, and only the ASCII digits are
digits. -/
structure IsDecimal (ds : List Char) (n : Nat) : Prop where
  /-- there is a digit -/
  nonempty : ds ≠ []
  /-- there is nothing else -/
  digits : ∀ d ∈ ds, isDigit d = true
  /-- the digits have this value -/
  value : Nat.ofDigitChars 10 ds 0 = n

variable {c : Char} {cs ds : List Char} {n : Int} {d k : Nat}

theorem digit?_eq_some_iff : digit? c = some d ↔ isDigit c = true ∧ d = c.toNat - '0'.toNat := by
  simp only [digit?, isDigit, Bool.and_eq_true, decide_eq_true_eq]
  split
  case isTrue h => simp [h, eq_comm]
  case isFalse h => simp [h]

/-- More digits never make a number smaller. -/
theorem le_ofDigitChars (cs : List Char) (k : Nat) : k ≤ Nat.ofDigitChars 10 cs k := by
  rw [Nat.ofDigitChars_eq_ofDigitChars_zero]
  have := Nat.le_mul_of_pos_left k (Nat.pow_pos (n := cs.length) (show 0 < 10 by decide))
  omega

theorem not_isDecimal_nil : ¬IsDecimal [] k :=
  fun h => h.nonempty rfl

theorem isDecimal_toString (n : Nat) : IsDecimal (toString n).toList n := by
  rw [Nat.toString_eq_repr, Nat.toList_repr]
  refine ⟨Nat.toDigits_ne_nil, ?_, Nat.ofDigitChars_ten_toDigits⟩
  intro d hd
  have := Nat.isDigit_of_mem_toDigits (by decide) (by decide) hd
  simpa [isDigit, Char.isDigit, Char.le_def] using this

namespace Width

variable {w : Width}

/-! ## Numerals -/

/-- The text writes `n`, which need not lie in the width. -/
inductive Writes (w : Width) : List Char → Int → Prop
  /-- without a sign -/
  | plain {ds : List Char} {k : Nat} (h : IsDecimal ds k) : w.Writes ds k
  /-- with a plus sign -/
  | plus {ds : List Char} {k : Nat} (h : IsDecimal ds k) : w.Writes ('+' :: ds) k
  /-- with a minus sign, where there are negative numbers -/
  | minus {ds : List Char} {k : Nat} (hleast : w.least < 0) (h : IsDecimal ds k) :
    w.Writes ('-' :: ds) (-k)

/-- The text writes the number `n` of the width. -/
structure Numeral (w : Width) (cs : List Char) (n : Int) : Prop where
  /-- it writes `n` -/
  written : w.Writes cs n
  /-- `n` is not below the width -/
  least_le : w.least ≤ n
  /-- nor above it -/
  le_greatest : n ≤ w.greatest

/-- Nothing but digits and signs stands in a numeral. -/
theorem Writes.mem (h : w.Writes cs n) (hc : c ∈ cs) : isDigit c = true ∨ c = '+' ∨ c = '-' := by
  cases h with
  | plain h => exact .inl (h.digits c hc)
  | plus h =>
    rcases List.mem_cons.mp hc with rfl | hc
    · exact .inr (.inl rfl)
    · exact .inl (h.digits c hc)
  | minus _ h =>
    rcases List.mem_cons.mp hc with rfl | hc
    · exact .inr (.inr rfl)
    · exact .inl (h.digits c hc)

theorem Writes.ne_nil (h : w.Writes cs n) : cs ≠ [] := by
  cases h with
  | plain h => exact h.nonempty
  | plus _ => exact List.cons_ne_nil _ _
  | minus _ _ => exact List.cons_ne_nil _ _

/-! ## Reading digits -/

/-- Upwards, what is read is the value of the digits behind the number so far, if it does not exceed
the width. Where a digit leads out of it, the whole number does. -/
theorem readUp_eq_ok_iff (hk : (k : Int) ≤ w.greatest) :
    w.readUp k cs = .ok n ↔
      (∀ d ∈ cs, isDigit d = true) ∧ n = (Nat.ofDigitChars 10 cs k : Nat) ∧ n ≤ w.greatest := by
  induction cs generalizing k with
  | nil =>
    simp only [readUp, Except.ok.injEq, List.not_mem_nil, false_implies, implies_true, true_and,
      Nat.ofDigitChars_nil]
    constructor
    · rintro rfl
      exact ⟨rfl, hk⟩
    · rintro ⟨rfl, -⟩
      rfl
  | cons c cs ih =>
    rw [readUp, List.forall_mem_cons, Nat.ofDigitChars_cons]
    split
    case h_1 hnone =>
      refine iff_of_false (by simp) ?_
      rintro ⟨⟨hdigit, -⟩, -, -⟩
      rw [digit?_eq_some_iff.mpr ⟨hdigit, rfl⟩] at hnone
      cases hnone
    case h_2 d hsome =>
      obtain ⟨hdigit, rfl⟩ := digit?_eq_some_iff.mp hsome
      have hnext : (k : Int) * 10 + (c.toNat - '0'.toNat : Nat)
          = (10 * k + (c.toNat - '0'.toNat) : Nat) := by
        push_cast
        omega
      rw [hnext]
      split
      case isTrue hle => rw [ih hle, and_iff_right hdigit]
      case isFalse hgt =>
        refine iff_of_false (by simp) ?_
        rintro ⟨-, hn, hle⟩
        apply hgt
        have := le_ofDigitChars cs (10 * k + (c.toNat - '0'.toNat))
        omega

/-- The width of the opposite numbers. -/
def opposite (w : Width) : Width := ⟨-w.greatest, -w.least⟩

/-- Reading downwards is reading upwards among the opposite numbers. -/
theorem readDown_eq_ok_iff {acc : Int} :
    w.readDown acc cs = .ok n ↔ w.opposite.readUp (-acc) cs = .ok (-n) := by
  induction cs generalizing acc with
  | nil => simp [readDown, readUp]
  | cons c cs ih =>
    rw [readDown, readUp]
    split
    case h_1 => simp
    case h_2 d hsome =>
      have hnext : -acc * 10 + d = -(acc * 10 - d) := by omega
      have hwithin : -(acc * 10 - d) ≤ w.opposite.greatest ↔ w.least ≤ acc * 10 - d := by
        simp only [opposite]
        omega
      simp only [hnext, hwithin]
      split
      · exact ih
      · simp

theorem readUp_zero_eq_ok_iff (hleast : w.least ≤ 0) (hgreatest : 0 ≤ w.greatest) (hcs : cs ≠ []) :
    w.readUp 0 cs = .ok n ↔
      (∃ k : Nat, IsDecimal cs k ∧ n = k) ∧ w.least ≤ n ∧ n ≤ w.greatest := by
  have h : w.readUp (0 : Nat) cs = .ok n ↔ _ := readUp_eq_ok_iff hgreatest
  rw [Int.natCast_zero] at h
  rw [h]
  constructor
  · rintro ⟨hdigits, rfl, hle⟩
    exact ⟨⟨_, ⟨hcs, hdigits, rfl⟩, rfl⟩, by omega, hle⟩
  · rintro ⟨⟨k, ⟨-, hdigits, rfl⟩, rfl⟩, -, hle⟩
    exact ⟨hdigits, rfl, hle⟩

theorem readDown_zero_eq_ok_iff (hleast : w.least ≤ 0) (hgreatest : 0 ≤ w.greatest)
    (hcs : cs ≠ []) : w.readDown 0 cs = .ok n ↔
      (∃ k : Nat, IsDecimal cs k ∧ n = -k) ∧ w.least ≤ n ∧ n ≤ w.greatest := by
  have hleast' : w.opposite.least ≤ 0 := by
    simp only [opposite]
    omega
  have hgreatest' : 0 ≤ w.opposite.greatest := by
    simp only [opposite]
    omega
  rw [readDown_eq_ok_iff, Int.neg_zero, readUp_zero_eq_ok_iff hleast' hgreatest' hcs]
  simp only [opposite]
  constructor
  · rintro ⟨⟨k, hk, heq⟩, hle, hle'⟩
    exact ⟨⟨k, hk, by omega⟩, by omega, by omega⟩
  · rintro ⟨⟨k, hk, heq⟩, hle, hle'⟩
    exact ⟨⟨k, hk, by omega⟩, by omega, by omega⟩

/-! ## Reading numerals -/

theorem not_isDigit_sign : isDigit '+' = false ∧ isDigit '-' = false := by
  decide

theorem writes_plus_iff : w.Writes ('+' :: cs) n ↔ ∃ k : Nat, IsDecimal cs k ∧ n = k := by
  constructor
  · intro h
    cases h with
    | plain h => simpa [not_isDigit_sign] using h.digits '+' (.head cs)
    | plus h => exact ⟨_, h, rfl⟩
  · rintro ⟨k, h, rfl⟩
    exact .plus h

theorem writes_minus_iff (hnegative : w.least < 0) :
    w.Writes ('-' :: cs) n ↔ ∃ k : Nat, IsDecimal cs k ∧ n = -k := by
  constructor
  · intro h
    cases h with
    | plain h => simpa [not_isDigit_sign] using h.digits '-' (.head cs)
    | minus _ h => exact ⟨_, h, rfl⟩
  · rintro ⟨k, h, rfl⟩
    exact .minus hnegative h

theorem writes_iff_of_unsigned (hplus : c ≠ '+') (hminus : ¬(c = '-' ∧ w.least < 0)) :
    w.Writes (c :: cs) n ↔ ∃ k : Nat, IsDecimal (c :: cs) k ∧ n = k := by
  constructor
  · intro h
    cases h with
    | plain h => exact ⟨_, h, rfl⟩
    | plus _ => exact absurd rfl hplus
    | minus hnegative _ => exact absurd ⟨rfl, hnegative⟩ hminus
  · rintro ⟨k, h, rfl⟩
    exact .plain h

/-- **Reading.** A number is read from its numerals, and from nothing else. -/
theorem readChars_eq_ok_iff (hleast : w.least ≤ 0) (hgreatest : 0 ≤ w.greatest) :
    w.readChars cs = .ok n ↔ w.Numeral cs n := by
  have hnumeral : w.Numeral cs n ↔ w.Writes cs n ∧ w.least ≤ n ∧ n ≤ w.greatest :=
    ⟨fun h => ⟨h.written, h.least_le, h.le_greatest⟩, fun h => ⟨h.1, h.2.1, h.2.2⟩⟩
  rw [hnumeral]
  cases cs with
  | nil =>
    exact iff_of_false nofun fun ⟨h, _⟩ => h.ne_nil rfl
  | cons c cs =>
    rw [readChars]
    by_cases hplus : c = '+'
    · subst hplus
      rw [if_pos rfl, writes_plus_iff]
      by_cases hcs : cs = []
      · simp [hcs, not_isDecimal_nil]
      · rw [if_neg (by simpa using hcs), readUp_zero_eq_ok_iff hleast hgreatest hcs]
    · rw [if_neg hplus]
      by_cases hminus : c = '-' ∧ w.least < 0
      · obtain ⟨rfl, hnegative⟩ := hminus
        rw [if_pos ⟨rfl, hnegative⟩, writes_minus_iff hnegative]
        by_cases hcs : cs = []
        · simp [hcs, not_isDecimal_nil]
        · rw [if_neg (by simpa using hcs), readDown_zero_eq_ok_iff hleast hgreatest hcs]
      · rw [if_neg hminus, writes_iff_of_unsigned hplus hminus,
          readUp_zero_eq_ok_iff hleast hgreatest (List.cons_ne_nil c cs)]

/-- A number of the width is read from its usual form. -/
theorem numeral_toString (hleast : w.least ≤ n) (hgreatest : n ≤ w.greatest) :
    w.Numeral (toString n).toList n := by
  refine ⟨?_, hleast, hgreatest⟩
  rw [Int.toString_eq_repr]
  cases n with
  | ofNat k => exact .plain (isDecimal_toString k)
  | negSucc k =>
    have hsign : (Int.negSucc k).repr.toList = '-' :: (toString (k + 1)).toList := by
      simp [Int.repr]
    rw [hsign]
    exact .minus (by omega) (isDecimal_toString (k + 1))

end Width

end AccountHistory
