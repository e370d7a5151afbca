import AccountHistory.Json.Reader
import AccountHistory.Toml.Document

/-!
# Reading TOML

The text of a document is read into its lines, which `Toml.ofLines` puts together. A line holds a
header, an assignment or nothing, and perhaps a comment; only what stands in brackets or braces, and
strings between three quotes, go on over the end of a line.

Each reader of a part takes the characters ahead and gives the part and what is left, or nothing.
The readers of what nests or repeats carry a bound on the number of steps; every step consumes a
character.
-/

namespace AccountHistory.Toml

/-! ## Blanks, comments and ends of lines -/

/-- The blanks inside a line. -/
def isSpace (c : Char) : Bool :=
  c == ' ' || c == '\t'

/-- The characters after the blanks. -/
def skipSpace (cs : List Char) : List Char :=
  cs.dropWhile isSpace

/-- A character that may stand in a comment or a string: no control character, except the tab. -/
def isPrintable (c : Char) : Bool :=
  c == '\t' || (0x20 ≤ c.toNat && c.toNat != 0x7f)

/-- What follows the end of the line, if it is ahead. -/
def afterNewline? : List Char → Option (List Char)
  | '\n' :: r => some r
  | '\r' :: '\n' :: r => some r
  | _ => none

/-- The characters after a comment, if one is ahead. -/
def skipComment : List Char → List Char
  | '#' :: r => r.dropWhile isPrintable
  | cs => cs

/-- What follows the rest of a line in which nothing more is said; also the end of the text. -/
def afterLine? (cs : List Char) : Option (List Char) :=
  match skipComment (skipSpace cs) with
  | [] => some []
  | r => afterNewline? r

/-- The characters after blanks, comments and ends of lines, as between the items of an array. -/
def skipLines : Nat → List Char → List Char
  | 0, cs => cs
  | fuel + 1, cs =>
    let r := skipComment (skipSpace cs)
    match afterNewline? r with
    | none => r
    | some r => skipLines fuel r

/-! ## Strings -/

/-- The character of a code point written by hexadecimal digits. -/
def codePoint? (digits : List Char) : Option Char := do
  let n ← digits.foldlM (fun n c => (hexDigit? c).map fun d => n * 16 + d) 0
  if n < 0xd800 ∨ (0xdfff < n ∧ n < 0x110000) then some (Char.ofNat n) else none

/-- The character that an escape stands for, its backslash being read, and what follows. -/
def readEscape : List Char → Option (Char × List Char)
  | 'b' :: r => some ('\x08', r)
  | 't' :: r => some ('\t', r)
  | 'n' :: r => some ('\n', r)
  | 'f' :: r => some ('\x0c', r)
  | 'r' :: r => some ('\r', r)
  | 'e' :: r => some ('\x1b', r)
  | '"' :: r => some ('"', r)
  | '\\' :: r => some ('\\', r)
  | 'x' :: r =>
    if r.length < 2 then none else (codePoint? (r.take 2)).map fun c => (c, r.drop 2)
  | 'u' :: r =>
    if r.length < 4 then none else (codePoint? (r.take 4)).map fun c => (c, r.drop 4)
  | 'U' :: r =>
    if r.length < 8 then none else (codePoint? (r.take 8)).map fun c => (c, r.drop 8)
  | _ => none

/-- The rest of a string between double quotes, behind `seen` (last character first). -/
def readQuoted : Nat → List Char → List Char → Option (String × List Char)
  | 0, _, _ => none
  | _ + 1, _, [] => none
  | fuel + 1, seen, c :: cs =>
    if c = '"' then some (String.ofList seen.reverse, cs)
    else if c = '\\' then
      match readEscape cs with
      | none => none
      | some (e, r) => readQuoted fuel (e :: seen) r
    else if isPrintable c then readQuoted fuel (c :: seen) cs
    else none

/-- The rest of a string between single quotes: every character stands for itself. -/
def readLiteral (seen : List Char) : List Char → Option (String × List Char)
  | [] => none
  | c :: cs =>
    if c = '\'' then some (String.ofList seen.reverse, cs)
    else if isPrintable c then readLiteral (c :: seen) cs
    else none

/-- What follows an escaped end of line: the blanks and ends of lines after it belong to it. -/
def afterEscapedNewline? (cs : List Char) : Option (List Char) :=
  (afterNewline? (skipSpace cs)).map fun r =>
    r.dropWhile fun c => isSpace c || c == '\n' || c == '\r'

/-- The rest of a string between three quotes, behind `seen`. Up to two quotes may stand before the
closing ones; a backslash escapes only between double quotes. -/
def readMultiline (quote : Char) : Nat → List Char → List Char → Option (String × List Char)
  | 0, _, _ => none
  | _ + 1, _, [] => none
  | fuel + 1, seen, c :: cs =>
    if c = quote then
      let run := ((c :: cs).takeWhile (· == quote)).length
      if run < 3 then readMultiline quote fuel (c :: seen) cs
      else
        let inside := min (run - 3) 2
        some (String.ofList (seen.reverse ++ List.replicate inside quote),
          (c :: cs).drop (inside + 3))
    else if c = '\\' ∧ quote = '"' then
      match afterEscapedNewline? cs with
      | some r => readMultiline quote fuel seen r
      | none =>
        match readEscape cs with
        | none => none
        | some (e, r) => readMultiline quote fuel (e :: seen) r
    else
      match afterNewline? (c :: cs) with
      | some r =>
        if c = '\n' then readMultiline quote fuel ('\n' :: seen) r
        else readMultiline quote fuel ('\n' :: '\r' :: seen) r
      | none => if isPrintable c then readMultiline quote fuel (c :: seen) cs else none

/-- A string, if one is ahead, of any of the four kinds. An end of line right after three opening
quotes does not count. -/
def readString (cs : List Char) : Option (String × List Char) :=
  let fuel := cs.length + 1
  let begun (r : List Char) : List Char := (afterNewline? r).getD r
  match cs with
  | '"' :: '"' :: '"' :: r => readMultiline '"' fuel [] (begun r)
  | '\'' :: '\'' :: '\'' :: r => readMultiline '\'' fuel [] (begun r)
  | '"' :: r => readQuoted fuel [] r
  | '\'' :: r => readLiteral [] r
  | _ => none

/-! ## Names -/

/-- A character of a name without quotes. -/
def isBare (c : Char) : Bool :=
  ('a' ≤ c && c ≤ 'z') || ('A' ≤ c && c ≤ 'Z') || isDigit c || c == '_' || c == '-'

/-- One part of a name: bare, or a string on one line. -/
def readPart (cs : List Char) : Option (String × List Char) :=
  match cs with
  | '"' :: r => readQuoted (cs.length + 1) [] r
  | '\'' :: r => readLiteral [] r
  | _ =>
    let part := cs.takeWhile isBare
    if part.isEmpty then none else some (String.ofList part, cs.dropWhile isBare)

/-- A name: parts with dots between them, and blanks around the parts. -/
def readName : Nat → List Char → Option (List String × List Char)
  | 0, _ => none
  | fuel + 1, cs =>
    match readPart (skipSpace cs) with
    | none => none
    | some (part, r) =>
      match skipSpace r with
      | '.' :: r => (readName fuel r).map fun (parts, r) => (part :: parts, r)
      | r => some ([part], r)

/-! ## Words -/

/-- A character of a value in one word. -/
def isWordChar (c : Char) : Bool :=
  isBare c || c == '+' || c == '.' || c == ':'

/-- Digits to a base with single underscores between them. -/
def digits? (base : Nat) (cs : List Char) : Option Nat :=
  let digit? (c : Char) : Option Nat := (hexDigit? c).filter (· < base)
  let rec value (acc : Nat) (afterDigit : Bool) : List Char → Option Nat
    | [] => if afterDigit then some acc else none
    | '_' :: cs => if afterDigit then value acc false cs else none
    | c :: cs => (digit? c).bind fun d => value (acc * base + d) true cs
  value 0 false cs

/-- A decimal number without leading zeros. -/
def decimal? (cs : List Char) : Option Nat :=
  if cs.head? = some '0' ∧ 1 < cs.length then none else digits? 10 cs

/-- The integer that a word writes. -/
def integer? : List Char → Option Int
  | '+' :: cs => (decimal? cs).map Int.ofNat
  | '-' :: cs => (decimal? cs).map fun n => -(n : Int)
  | '0' :: 'x' :: cs => (digits? 16 cs).map Int.ofNat
  | '0' :: 'o' :: cs => (digits? 8 cs).map Int.ofNat
  | '0' :: 'b' :: cs => (digits? 2 cs).map Int.ofNat
  | cs => (decimal? cs).map Int.ofNat

/-- The characters are digits with single underscores between them, at least one. -/
def isGrouped (cs : List Char) : Bool :=
  (digits? 10 cs).isSome

/-- The characters are an exponent behind its letter, with or without a sign. -/
def isExponent : List Char → Bool
  | '+' :: cs => isGrouped cs
  | '-' :: cs => isGrouped cs
  | cs => isGrouped cs

/-- The characters are a number that is no integer: digits with a fraction, an exponent or both, or
one of the words for a number beyond all others and for none. -/
def isReal (cs : List Char) : Bool :=
  let unsigned := match cs with
    | '+' :: r => r
    | '-' :: r => r
    | r => r
  let isMark (c : Char) : Bool := c == 'e' || c == 'E'
  let significand := unsigned.takeWhile fun c => !isMark c
  let exponent := unsigned.dropWhile fun c => !isMark c
  let isWhole (whole : List Char) : Bool := (decimal? whole).isSome
  [['i', 'n', 'f'], ['n', 'a', 'n']].contains unsigned
    || (exponent.isEmpty || isExponent (exponent.drop 1))
      && match significand.dropWhile (· ≠ '.') with
        | [] => !exponent.isEmpty && isWhole significand
        | _ :: part => isWhole (significand.takeWhile (· ≠ '.')) && isGrouped part

/-- A value in one word. -/
def word? (cs : List Char) : Option Toml :=
  match integer? cs with
  | some n => some (if Width.int64.holds n then .int n else .other)
  | none =>
    match Moment.ofChars? cs with
    | some m => some (.moment m)
    | none =>
      if isReal cs || ["true", "false"].contains (String.ofList cs) then some .other else none

/-- The word ahead and what follows it. A date and a time with one blank between them are one word.
-/
def readWord (cs : List Char) : List Char × List Char :=
  let word := cs.takeWhile isWordChar
  let rest := cs.dropWhile isWordChar
  match readDate word, rest with
  | some (_, []), ' ' :: d :: r =>
    if isDigit d then
      (word ++ ' ' :: (d :: r).takeWhile isWordChar, (d :: r).dropWhile isWordChar)
    else (word, rest)
  | _, _ => (word, rest)

/-! ## Values -/

mutual

/-- A value. -/
def readValue : Nat → List Char → Option (Toml × List Char)
  | 0, _ => none
  | fuel + 1, cs =>
    match cs with
    | '[' :: r => (readItems fuel (skipLines r.length r)).map fun (items, r) => (.arr items, r)
    | '{' :: r => do
      let (entries, r) ← readEntries fuel (skipLines r.length r)
      return (← inline entries, r)
    | '"' :: _ | '\'' :: _ => (readString cs).map fun (s, r) => (.str s, r)
    | _ => (word? (readWord cs).1).map fun v => (v, (readWord cs).2)

/-- The items of an array up to its closing bracket. -/
def readItems : Nat → List Char → Option (List Toml × List Char)
  | 0, _ => none
  | _ + 1, ']' :: r => some ([], r)
  | fuel + 1, cs => do
    let (item, r) ← readValue fuel cs
    match skipLines r.length r with
    | ',' :: r =>
      let (items, r) ← readItems fuel (skipLines r.length r)
      return (item :: items, r)
    | ']' :: r => return ([item], r)
    | _ => none

/-- The names and values of a table up to its closing brace. -/
def readEntries : Nat → List Char → Option (List (List String × Toml) × List Char)
  | 0, _ => none
  | _ + 1, '}' :: r => some ([], r)
  | fuel + 1, cs => do
    let (name, r) ← readName (cs.length + 1) cs
    match r with
    | '=' :: r =>
      let (value, r) ← readValue fuel (skipSpace r)
      match skipLines r.length r with
      | ',' :: r =>
        let (entries, r) ← readEntries fuel (skipLines r.length r)
        return ((name, value) :: entries, r)
      | '}' :: r => return ([(name, value)], r)
      | _ => none
    | _ => none

end

/-! ## Lines -/

/-- The line that begins with a name and says something. -/
def readAssignment (cs : List Char) : Option (Line × List Char) := do
  let (name, r) ← readName (cs.length + 1) cs
  match r with
  | '=' :: r =>
    let (value, r) ← readValue (2 * r.length + 2) (skipSpace r)
    return (.assign name value, r)
  | _ => none

/-- What a line says and what follows, the end of the line included. -/
def readLine (cs : List Char) : Option (Line × List Char) :=
  match cs with
  | '[' :: '[' :: r => do
    let (name, r) ← readName (r.length + 1) r
    match r with
    | ']' :: ']' :: r => return (.item name, r)
    | _ => none
  | '[' :: r => do
    let (name, r) ← readName (r.length + 1) r
    match r with
    | ']' :: r => return (.table name, r)
    | _ => none
  | _ => readAssignment cs

/-- The lines of a text. -/
def readLines : Nat → List Char → Option (List Line)
  | 0, _ => none
  | fuel + 1, cs =>
    match skipLines cs.length cs with
    | [] => some []
    | r =>
      match readLine r with
      | none => none
      | some (line, r) =>
        match afterLine? r with
        | none => none
        | some r => (readLines fuel r).map (line :: ·)

/-- The document that a text writes; a byte order mark in front does not count. -/
def parse? (text : String) : Option TomlFields :=
  let cs := match text.toList with
    | c :: cs => if c.toNat = 0xfeff then cs else c :: cs
    | [] => []
  (readLines (cs.length + 1) cs).bind ofLines

end AccountHistory.Toml
