import AccountHistory.Number.Integer

/-!
# JSON values

Ranges, rows and model definitions travel as JSON. A value keeps the fields of an object in the
order in which they are written, repeated names included: who repeats a name, and what that means,
is for the reader of the object to say (`field?` takes the last one).

Numbers are of two kinds. A number without fraction and exponent that fits 64 bits is `int`; every
other number, the negative zero among them, is `real`.
-/

namespace AccountHistory

/-- A JSON value. -/
inductive Json where
  /-- the null value -/
  | null
  /-- a truth value -/
  | bool (b : Bool)
  /-- a number written without fraction and exponent that fits 64 bits, signed or unsigned -/
  | int (n : Int)
  /-- any other number, as the double nearest to it -/
  | real (x : Float)
  /-- a string -/
  | str (s : String)
  /-- an array -/
  | arr (items : List Json)
  /-- an object, its fields as they are written -/
  | obj (fields : List (String × Json))
  deriving Inhabited, Repr

namespace Json

/-! ## Looking into a value -/

/-- The value of the last field called `key`; `none` for a missing field and for a value that is no
object. -/
def field? (v : Json) (key : String) : Option Json :=
  match v with
  | .obj fields => (fields.reverse.find? fun f => f.1 == key).map Prod.snd
  | _ => none

/-- The integer of 64 bits with a sign that `v` is, if it is one. -/
def int64? : Json → Option Int
  | .int n => if Width.int64.holds n then some n else none
  | _ => none

/-- The string that `v` is, if it is one. -/
def string? : Json → Option String
  | .str s => some s
  | _ => none

/-- The truth value that `v` is, if it is one. -/
def bool? : Json → Option Bool
  | .bool b => some b
  | _ => none

/-- The items of the array that `v` is, if it is one. -/
def array? : Json → Option (List Json)
  | .arr items => some items
  | _ => none

/-- The fields of the object that `v` is, if it is one. -/
def object? : Json → Option (List (String × Json))
  | .obj fields => some fields
  | _ => none

/-- The strings of the array of strings that `v` is, if it is one. -/
def strings? (v : Json) : Option (List String) := do
  (← v.array?).mapM string?

/-- Objects and arrays, as against the plain values. -/
def isNested : Json → Bool
  | .arr _ | .obj _ => true
  | _ => false

/-- The value, or null for a missing one. -/
def ofOption {α : Type} (f : α → Json) : Option α → Json
  | none => .null
  | some a => f a

end Json

end AccountHistory
