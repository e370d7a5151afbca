import AccountHistory.Text.Letter
import AccountHistory.Text.Quoted

/-!
# Column types

A column has one of twelve types, each with one spelling in data definitions. A model written by
hand names its types as text: letter case and the amount of blank space between words do not matter,
and whatever is none of the twelve spellings is refused.
-/

namespace AccountHistory

open Text

/-- The type of a column. -/
inductive SqlType where
  /-- a generated row identifier, declared not null -/
  | idPrimaryKey
  /-- a generated row identifier -/
  | integerPrimaryKey
  /-- an integer -/
  | integer
  /-- an integer, always present -/
  | integerNotNull
  /-- a large integer: timestamps and identifiers of the exchange -/
  | bigint
  /-- a large integer, always present -/
  | bigintNotNull
  /-- an amount with twelve places -/
  | decimal
  /-- an amount with twelve places, always present -/
  | decimalNotNull
  /-- a short text -/
  | varchar
  /-- a short text, always present -/
  | varcharNotNull
  /-- a text -/
  | text
  /-- a text, always present -/
  | textNotNull
  deriving DecidableEq, Repr, Inhabited

namespace SqlType

/-- Every type, in the order of their declaration. -/
def all : List SqlType :=
  [idPrimaryKey, integerPrimaryKey, integer, integerNotNull, bigint, bigintNotNull, decimal,
    decimalNotNull, varchar, varcharNotNull, text, textNotNull]

/-- The spelling of a type in data definitions. -/
def spelling : SqlType → String
  | idPrimaryKey => "INTEGER NOT NULL PRIMARY KEY AUTOINCREMENT"
  | integerPrimaryKey => "INTEGER PRIMARY KEY AUTOINCREMENT"
  | integer => "INTEGER"
  | integerNotNull => "INTEGER NOT NULL"
  | bigint => "BIGINT"
  | bigintNotNull => "BIGINT NOT NULL"
  | decimal => "DECIMAL(22,12)"
  | decimalNotNull => "DECIMAL(22,12) NOT NULL"
  | varchar => "VARCHAR(255)"
  | varcharNotNull => "VARCHAR(255) NOT NULL"
  | text => "TEXT"
  | textNotNull => "TEXT NOT NULL"

/-- The two types that generate row identifiers. -/
def isPrimaryKey : SqlType → Bool
  | idPrimaryKey | integerPrimaryKey => true
  | _ => false

/-- The form under which a text is compared with the spellings: its words, one space apart, in upper
case. -/
def normalForm (s : String) : String :=
  upper (" ".intercalate (words s))

/-- The type whose spelling a text is, up to letter case and blank space. -/
def parse? (s : String) : Option SqlType :=
  all.find? fun t => t.spelling == normalForm s

/-- The refusal of a text that is no type. -/
structure Unknown where
  /-- the text as it was given -/
  text : String
  deriving DecidableEq, Repr

/-- The type that a text spells, or its refusal. -/
def parse (s : String) : Except Unknown SqlType :=
  match parse? s with
  | some t => .ok t
  | none => .error ⟨s⟩

/-- The complaint about a text that is no type. -/
def unknownMessage (s : String) : String :=
  "unrecognized SQL type: " ++ quote s

theorem mem_all (t : SqlType) : t ∈ all := by
  cases t <;> simp [all]

/-- A text reads as a type only if its normal form is the spelling of that type. -/
theorem spelling_of_parse? {s : String} {t : SqlType} (h : parse? s = some t) :
    t.spelling = normalForm s := by
  have := List.find?_some h
  simpa using this

end SqlType

end AccountHistory
