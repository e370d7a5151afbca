import AccountHistory.Text.Blank

/-!
# Letter case

Type spellings are compared by their upper-case form and keywords by their lower-case form. Both
are compared with texts in ASCII alone, so of the case tables only the characters whose image is
written in ASCII can matter:

* beyond the ASCII letters, exactly ten characters have an upper-case form in ASCII letters (the
  sharp s, the dotless i, the long s and seven ligatures); `upper` maps them and leaves every other
  character as it is, which never equals an ASCII character;
* the only foreign character with a lower-case form in ASCII is the Kelvin sign, whose form is `k`.
-/

namespace AccountHistory.Text

/-! ## ASCII case -/

/-- The capital of an ASCII letter; any other character is its own. -/
def capital (c : Char) : Char :=
  if 'a' ≤ c ∧ c ≤ 'z' then Char.ofNat (c.toNat - 32) else c

/-- The small form of an ASCII letter; any other character is its own. -/
def small (c : Char) : Char :=
  if 'A' ≤ c ∧ c ≤ 'Z' then Char.ofNat (c.toNat + 32) else c

/-- `s` with its ASCII letters made small: the form under which SQL names and keywords agree. -/
def fold (s : String) : String :=
  String.ofList (s.toList.map small)

/-- Two texts agree up to the case of ASCII letters. -/
def sameFold (s t : String) : Bool :=
  fold s == fold t

/-! ## Upper case across the whole character set -/

/-- The upper-case form of a character, as far as that form is written in ASCII letters. -/
def upperChar (c : Char) : List Char :=
  match c.toNat with
  | 0xdf => ['S', 'S']
  | 0x131 => ['I']
  | 0x17f => ['S']
  | 0xfb00 => ['F', 'F']
  | 0xfb01 => ['F', 'I']
  | 0xfb02 => ['F', 'L']
  | 0xfb03 => ['F', 'F', 'I']
  | 0xfb04 => ['F', 'F', 'L']
  | 0xfb05 => ['S', 'T']
  | 0xfb06 => ['S', 'T']
  | _ => [capital c]

/-- The upper-case form of `s`, for comparison with a text in ASCII. -/
def upper (s : String) : String :=
  String.ofList (s.toList.flatMap upperChar)

/-! ## Lower case across the whole character set -/

/-- The lower-case form of a character, as far as that form is written in ASCII letters. -/
def lowerChar (c : Char) : Char :=
  if c.toNat = 0x212a then 'k' else small c

/-- The lower-case form of `s`, for comparison with a text in ASCII. -/
def lower (s : String) : String :=
  String.ofList (s.toList.map lowerChar)

end AccountHistory.Text
