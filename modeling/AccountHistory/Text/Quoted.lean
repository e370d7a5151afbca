import AccountHistory.Text.Invisible

/-!
# Quoted text

Messages name what they complain about in quotes, so that blanks, quotes and invisible characters
can be seen. `quote` is the written form of a text: a double quote at both ends, a backslash before
double quotes and backslashes, short escapes for the line characters and the null character, the
code point in braces for every other invisible character, and all else as it stands.
-/

namespace AccountHistory.Text

/-- The digits of `n` to base sixteen, small letters, without padding. -/
def hexDigits (n : Nat) : List Char :=
  Nat.toDigits 16 n

/-- The characters that stand for `c` inside a quoted text. -/
def escapeChar (c : Char) : List Char :=
  if c == '"' || c == '\\' then ['\\', c]
  else if c == '\n' then ['\\', 'n']
  else if c == '\r' then ['\\', 'r']
  else if c == '\t' then ['\\', 't']
  else if c.toNat == 0 then ['\\', '0']
  else if isInvisible c then ['\\', 'u', '\x7b'] ++ hexDigits c.toNat ++ ['\x7d']
  else [c]

/-- The quoted form of a text. -/
def quote (s : String) : String :=
  String.ofList ('"' :: (s.toList.flatMap escapeChar ++ ['"']))

/-- The written form of a list: its items between brackets, a comma and a space after each but
the last. -/
def listing (items : List String) : String :=
  "[" ++ ", ".intercalate items ++ "]"

/-- The written form of a value that may be missing. -/
def optional : Option String → String
  | none => "None"
  | some text => "Some(" ++ text ++ ")"

end AccountHistory.Text
