import AccountHistory.Sql.Numeral
import AccountHistory.Text.Letter

/-!
# Tokens of a statement text

A statement text is cut into words, quoted names, numbers, quoted texts and marks. Blank space and
comments part the tokens and are dropped. A character that begins no token, a number that runs into
a name, and a quote that is never closed are tokens of their own, `stray`, which no statement
admits: what stands before them can still be read and run.
-/

namespace AccountHistory.Sql

/-- A token of a statement text. -/
inductive Token where
  /-- a keyword or a bare name -/
  | word (s : String)
  /-- a name in quotes; in some quotes it may also be meant as a text -/
  | name (s : String) (orText : Bool)
  /-- a number as it is written -/
  | number (written : List Char)
  /-- a text in quotes -/
  | text (s : String)
  /-- a punctuation mark or an operator -/
  | mark (s : String)
  /-- something that is no token -/
  | stray
  deriving DecidableEq, Repr

namespace Token

/-! ## Characters -/

/-- The blanks that may begin a gap between tokens. -/
def isGapStart (c : Char) : Bool :=
  c == ' ' || c == '\t' || c == '\n' || c == '\r' || c == '\x0c'

/-- The mark of the byte order: a gap by itself. -/
def isOrderMark (c : Char) : Bool :=
  c.toNat == 0xfeff

/-- A character that may begin a bare name; every character beyond ASCII may, but for the mark of
the byte order. -/
def isNameStart (c : Char) : Bool :=
  c.isAlpha || c == '_' || (128 ≤ c.toNat && !isOrderMark c)

/-- A character that may stand in a bare name. -/
def isNameChar (c : Char) : Bool :=
  isNameStart c || isOrderMark c || isDigit c || c == '$'

/-! ## Quotes and comments -/

/-- Reads up to the closing quote `q`, a doubled quote standing for one; `none` if it never comes.
-/
def readQuoted (q : Char) : List Char → Option (List Char × List Char)
  | [] => none
  | c :: cs =>
    if c = q then
      match cs with
      | [] => some ([], [])
      | d :: ds =>
        if d = q then (readQuoted q ds).map fun (s, r) => (q :: s, r) else some ([], d :: ds)
    else (readQuoted q cs).map fun (s, r) => (c :: s, r)

/-- Reads up to the closing bracket; `none` if it never comes. -/
def readBracketed? (cs : List Char) : Option (List Char × List Char) :=
  match cs.dropWhile (· ≠ ']') with
  | [] => none
  | _ :: r => some (cs.takeWhile (· ≠ ']'), r)

/-- Drops a comment that runs to the end of its line. -/
def skipLine (cs : List Char) : List Char :=
  cs.dropWhile (· ≠ '\n')

/-- Drops a comment that runs to its closing mark. -/
def skipBlock : List Char → List Char
  | [] => []
  | [_] => []
  | '*' :: '/' :: cs => cs
  | _ :: cs => skipBlock cs

/-! ## Numbers -/

/-- Digits with separators between them, and what follows. -/
def readDigits (isOne : Char → Bool) (cs : List Char) : List Char × List Char :=
  let inside (c : Char) : Bool := isOne c || c == '_'
  (cs.takeWhile inside, cs.dropWhile inside)

/-- The exponent ahead, with its letter and sign, and what follows; empty if there is none. -/
def readExponent (cs : List Char) : List Char × List Char :=
  match cs with
  | e :: r =>
    let sign := match r with
      | '+' :: _ | '-' :: _ => r.take 1
      | _ => []
    let rest := r.drop sign.length
    if (e == 'e' || e == 'E') && (rest.head?).any isDigit then
      let (digits, rest) := readDigits isDigit rest
      (e :: sign ++ digits, rest)
    else ([], cs)
  | [] => ([], [])

/-- The number ahead as it is written, and what follows. -/
def readNumber (cs : List Char) : List Char × List Char :=
  match cs with
  | '0' :: x :: d :: r =>
    if (x == 'x' || x == 'X') && isHexDigit d then
      let (digits, r) := readDigits isHexDigit (d :: r)
      ('0' :: x :: digits, r)
    else decimal cs
  | _ => decimal cs
where
  /-- the number ahead, to the base ten -/
  decimal (cs : List Char) : List Char × List Char :=
    let (whole, cs) := readDigits isDigit cs
    let (part, cs) : List Char × List Char :=
      match cs with
      | '.' :: r =>
        let (part, r) := readDigits isDigit r
        ('.' :: part, r)
      | _ => ([], cs)
    let (exponent, cs) := readExponent cs
    (whole ++ part ++ exponent, cs)

/-! ## Tokens -/

/-- The marks of two characters. -/
def doubleMarks : List (List Char) :=
  [['<', '='], ['>', '='], ['<', '>'], ['=', '='], ['!', '='], ['|', '|']]

/-- The marks of one character. -/
def singleMarks : List Char :=
  ['(', ')', ',', ';', '.', '+', '-', '*', '/', '%', '<', '>', '=']

/-- The token in quotes that `make` gives; one that is never closed takes all that follows. -/
def quotedToken (make : String → Token) : Option (List Char × List Char) → Token × List Char
  | some (s, r) => (make (String.ofList s), r)
  | none => (.stray, [])

/-- The token ahead and what follows it; no gap and no comment is ahead. -/
def readOne (c : Char) (cs : List Char) : Token × List Char :=
  if isNameStart c then
    (.word (String.ofList (c :: cs.takeWhile isNameChar)), cs.dropWhile isNameChar)
  else if isDigit c || (c == '.' && (cs.head?).any isDigit) then
    let (written, r) := readNumber (c :: cs)
    if (r.head?).any isNameChar then (.stray, r.dropWhile isNameChar) else (.number written, r)
  else if c = '\'' then quotedToken .text (readQuoted '\'' cs)
  else if c = '"' then quotedToken (.name · true) (readQuoted '"' cs)
  else if c = '\x60' then quotedToken (.name · false) (readQuoted '\x60' cs)
  else if c = '[' then quotedToken (.name · false) (readBracketed? cs)
  else if doubleMarks.contains (c :: cs.take 1) then
    (.mark (String.ofList (c :: cs.take 1)), cs.drop 1)
  else if singleMarks.contains c then (.mark (String.ofList [c]), cs)
  else (.stray, cs)

/-- The tokens of a text, read in at most as many steps as the bound says. -/
def readAll : Nat → List Char → List Token
  | 0, _ => []
  | fuel + 1, cs =>
    match cs with
    | [] => []
    | '-' :: '-' :: r => readAll fuel (skipLine r)
    | '/' :: '*' :: d :: r => readAll fuel (skipBlock (d :: r))
    | c :: r =>
      if isGapStart c then readAll fuel (r.dropWhile Numeral.isBlank)
      else if isOrderMark c then readAll fuel r
      else
        let (t, rest) := readOne c r
        t :: readAll fuel rest

/-- The tokens of a text: every token and every gap takes a character, so its length bounds their
number. -/
def ofText (s : String) : List Token :=
  readAll (s.length + 1) s.toList

end Token

/-! ## Names -/

/-- The words that are never names. -/
def reservedWords : List String :=
  ["add", "all", "alter", "and", "as", "autoincrement", "between", "case", "check", "collate",
    "commit", "constraint", "create", "default", "deferrable", "delete", "distinct", "drop",
    "else", "escape", "except", "exists", "foreign", "from", "group", "having", "in", "index",
    "insert", "intersect", "into", "is", "isnull", "join", "limit", "not", "nothing", "notnull",
    "null", "on", "or", "order", "primary", "references", "returning", "select", "set", "table",
    "then", "to", "transaction", "union", "unique", "update", "using", "values", "when", "where"]

/-- The words that are names in some places only: those that begin an expression of their own, and
the one that begins a condition on what is made or dropped. -/
def wordsOfPlace : List String :=
  ["cast", "raise", "current_date", "current_time", "current_timestamp", "if"]

/-- The words that are names but not part of the name of a type. -/
def wordsOfJoins : List String :=
  ["cross", "full", "indexed", "inner", "left", "natural", "outer", "right"]

/-- The word may be a name. -/
def isFreeWord (s : String) : Bool :=
  !reservedWords.contains (Text.fold s)

/-- The text is a name without quotes wherever a name is asked for. -/
def isPlainName (s : String) : Bool :=
  match s.toList with
  | [] => false
  | c :: cs =>
    Token.isNameStart c && cs.all Token.isNameChar && isFreeWord s
      && !wordsOfPlace.contains (Text.fold s)

end AccountHistory.Sql
