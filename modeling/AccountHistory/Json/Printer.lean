import AccountHistory.Json.Value
import AccountHistory.Number.Shortest
import AccountHistory.Text.Quoted

/-!
# Writing JSON

The compact text of a value: no blank space, strings with short escapes where JSON has them, numbers
with the fewest digits that read back. An object is written either with its fields as they stand or
in a canonical order, by name and each name once, with the value its last field has.
-/

namespace AccountHistory.Json

/-! ## Strings and numbers -/

/-- The characters that stand for `c` inside a JSON string. -/
def stringChar (c : Char) : List Char :=
  if c = '"' ∨ c = '\\' then ['\\', c]
  else if c = '\x08' then ['\\', 'b']
  else if c = '\x0c' then ['\\', 'f']
  else if c = '\n' then ['\\', 'n']
  else if c = '\r' then ['\\', 'r']
  else if c = '\t' then ['\\', 't']
  else if c.toNat < 0x10 then ['\\', 'u', '0', '0', '0'] ++ Text.hexDigits c.toNat
  else if c.toNat < 0x20 then ['\\', 'u', '0', '0'] ++ Text.hexDigits c.toNat
  else [c]

/-- The text of a string. -/
def stringText (s : String) : String :=
  String.ofList ('"' :: (s.toList.flatMap stringChar ++ ['"']))

/-- Numbers stand in places from a hundred-thousandth up to sixteen digits before the point. -/
def realNotation : Number.Notation := ⟨-5, 15⟩

/-- The text of a double; JSON has no infinity and no undefined number, they are null. -/
def realText (x : Float) : String :=
  let bits := x.toBits.toNat
  if x.isNaN || x.isInf then "null"
  else
    let sign := if twoPow 63 ≤ bits then ['-'] else []
    let b := Number.Binary.ofBits bits
    if b.mantissa = 0 then String.ofList (sign ++ ['0', '.', '0'])
    else String.ofList (sign ++ realNotation.write b.shortest)

/-! ## Fields in order -/

/-- The order of the fields in a written object. -/
inductive FieldOrder where
  /-- as the fields stand -/
  | asWritten
  /-- by name, each name once -/
  | byName
  deriving DecidableEq, Repr

/-- Puts a field into fields sorted by name; a field of that name gives way. -/
def putSorted {α : Type} (key : String) (value : α) : List (String × α) → List (String × α)
  | [] => [(key, value)]
  | (k, v) :: rest =>
    if key < k then (key, value) :: (k, v) :: rest
    else if key = k then (key, value) :: rest
    else (k, v) :: putSorted key value rest

/-- The fields sorted by name, each name with its last value. -/
def sortFields {α : Type} (fields : List (String × α)) : List (String × α) :=
  fields.foldl (fun sorted f => putSorted f.1 f.2 sorted) []

/-- The texts of the fields of an object, put together. -/
def fieldsText (order : FieldOrder) (fields : List (String × String)) : String :=
  let fields := match order with
    | .asWritten => fields
    | .byName => sortFields fields
  "\x7b" ++ ",".intercalate (fields.map fun f => stringText f.1 ++ ":" ++ f.2) ++ "\x7d"

/-! ## Values -/

mutual

/-- The compact text of a value. -/
def text (order : FieldOrder) : Json → String
  | .null => "null"
  | .bool true => "true"
  | .bool false => "false"
  | .int n => toString n
  | .real x => realText x
  | .str s => stringText s
  | .arr items => "[" ++ ",".intercalate (itemTexts order items) ++ "]"
  | .obj fields => fieldsText order (fieldTexts order fields)

/-- The texts of several values. -/
def itemTexts (order : FieldOrder) : List Json → List String
  | [] => []
  | v :: vs => text order v :: itemTexts order vs

/-- The fields with their values as texts. -/
def fieldTexts (order : FieldOrder) : List (String × Json) → List (String × String)
  | [] => []
  | (k, v) :: fs => (k, text order v) :: fieldTexts order fs

end

end AccountHistory.Json
