import AccountHistory.Toml.Moment

/-!
# TOML documents

A document is a table of named values, put together line by line: a header opens a table, and what
follows is assigned inside it. A name may be dotted; what lies on its way are tables too.

A table remembers how it came to be, for that decides who may still add to it:

* a table made by its header is made once; a table that a longer header passed through may still get
  a header of its own;
* a table made by dotted names grows only by dotted names, or by headers that pass through it;
* a table written in one piece is finished.
-/

namespace AccountHistory

/-! ## Values -/

/-- How a table came to be. -/
inductive TableOrigin where
  /-- by a header of its own -/
  | headed
  /-- on the way of a longer header -/
  | passed
  /-- on the way of a dotted name -/
  | dotted
  /-- in one piece, between braces -/
  | closed
  deriving DecidableEq, Repr

/-- A value of a document. -/
inductive Toml where
  /-- a string -/
  | str (s : String)
  /-- an integer that fits 64 bits -/
  | int (n : Int)
  /-- a date, a time, or both -/
  | moment (m : Toml.Moment)
  /-- any other value in one word: a truth value or a fraction -/
  | other
  /-- an array -/
  | arr (items : List Toml)
  /-- tables that share a header, each opened by writing it again -/
  | tables (items : List (List (String × Toml)))
  /-- a table -/
  | table (origin : TableOrigin) (fields : List (String × Toml))
  deriving Inhabited, Repr

/-- The named values of a table, in the order of writing. -/
abbrev TomlFields := List (String × Toml)

namespace Toml

/-- The value of a name. -/
def field? (fields : TomlFields) (name : String) : Option Toml :=
  (fields.find? fun f => f.1 == name).map Prod.snd

/-- The fields with the value of a name replaced, or with one more at the end. -/
def put (name : String) (value : Toml) : TomlFields → TomlFields
  | [] => [(name, value)]
  | (n, v) :: rest => if n = name then (n, value) :: rest else (n, v) :: put name value rest

/-! ## Assigning -/

/-- Assigns a value to a dotted name: nothing is there yet, and what is on the way was made by
headers or names that pass through. -/
def assign : List String → Toml → TomlFields → Option TomlFields
  | [], _, _ => none
  | [name], value, fields =>
    match field? fields name with
    | none => some (fields ++ [(name, value)])
    | some _ => none
  | name :: path, value, fields =>
    match field? fields name with
    | none => (assign path value []).map fun sub => fields ++ [(name, .table .dotted sub)]
    | some (.table origin sub) =>
      if origin = .passed ∨ origin = .dotted then
        (assign path value sub).map fun sub => put name (.table origin sub) fields
      else none
    | some _ => none

/-! ## Headers -/

/-- Changes the table that a header leads to, the last one of tables that share a header. What is
missing on the way is made. -/
def change (f : TomlFields → String → Option TomlFields) :
    List String → TomlFields → Option TomlFields
  | [], _ => none
  | [name], fields => f fields name
  | name :: path, fields =>
    match field? fields name with
    | none => (change f path []).map fun sub => fields ++ [(name, .table .passed sub)]
    | some (.table origin sub) =>
      if origin = .closed then none
      else (change f path sub).map fun sub => put name (.table origin sub) fields
    | some (.tables items) =>
      match items.reverse with
      | [] => none
      | last :: before =>
        (change f path last).map fun last => put name (.tables (before.reverse ++ [last])) fields
    | some _ => none

/-- Opens a table by its header. -/
def openTable : List String → TomlFields → Option TomlFields :=
  change fun fields name =>
    match field? fields name with
    | none => some (fields ++ [(name, .table .headed [])])
    | some (.table .passed sub) => some (put name (.table .headed sub) fields)
    | some _ => none

/-- Opens one more of the tables that share a header. -/
def openItem : List String → TomlFields → Option TomlFields :=
  change fun fields name =>
    match field? fields name with
    | none => some (fields ++ [(name, .tables [[]])])
    | some (.tables items) => some (put name (.tables (items ++ [[]])) fields)
    | some _ => none

/-- Assigns a value to a dotted name inside the table of a header. -/
def assignUnder (header path : List String) (value : Toml) (fields : TomlFields) :
    Option TomlFields :=
  if header.isEmpty then assign path value fields
  else
    change (fun fields name =>
      match field? fields name with
      | some (.table origin sub) =>
        (assign path value sub).map fun sub => put name (.table origin sub) fields
      | some (.tables items) =>
        match items.reverse with
        | [] => none
        | last :: before =>
          (assign path value last).map fun last =>
            put name (.tables (before.reverse ++ [last])) fields
      | _ => none) header fields

/-! ## Lines -/

/-- What a line of a document says. -/
inductive Line where
  /-- a dotted name and its value -/
  | assign (path : List String) (value : Toml)
  /-- a header -/
  | table (path : List String)
  /-- a header of one of several tables -/
  | item (path : List String)
  deriving Repr

/-- The document that lines write after what is written already, inside the table of `header`. -/
def ofLinesFrom (header : List String) (fields : TomlFields) : List Line → Option TomlFields
  | [] => some fields
  | .assign path value :: rest =>
    match assignUnder header path value fields with
    | none => none
    | some fields => ofLinesFrom header fields rest
  | .table path :: rest =>
    match openTable path fields with
    | none => none
    | some fields => ofLinesFrom path fields rest
  | .item path :: rest =>
    match openItem path fields with
    | none => none
    | some fields => ofLinesFrom path fields rest

/-- The document that lines write. -/
def ofLines (lines : List Line) : Option TomlFields :=
  ofLinesFrom [] [] lines

/-- A table in one piece, from its names and values. -/
def inline (entries : List (List String × Toml)) : Option Toml :=
  (entries.foldlM (fun fields e => assign e.1 e.2 fields) []).map (.table .closed)

end Toml

end AccountHistory
