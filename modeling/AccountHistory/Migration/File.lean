import AccountHistory.Number.Integer

/-!
# Finding migrations

A migration is a regular file whose name tells the version it leads to, perhaps the time of its
writing, and its kind: `migration.v<version>[.<time>].<kind>`. Whatever else a directory holds is
passed over. A time that is no number counts as zero.

`Migration.inOrder` gives the migrations of a directory by version and time; those that agree in
both keep the order of the directory.
-/

namespace AccountHistory

/-- An entry of a directory. -/
structure DirectoryEntry where
  /-- its name -/
  name : String
  /-- where it is, if it lies in the file system -/
  path : Option String
  /-- it is a regular file -/
  isFile : Bool
  deriving DecidableEq, Repr

/-- A file that leads a database to a version. -/
structure Migration where
  /-- the name of the file -/
  name : String
  /-- the version it leads to -/
  version : Nat
  /-- the time of its writing, in milliseconds -/
  time : Int
  /-- the last part of its name -/
  kind : String
  /-- where it is, if it lies in the file system -/
  path : Option String
  deriving DecidableEq, Repr

namespace Migration

/-! ## Names -/

/-- The parts of a text between its dots. -/
def splitDots : List Char → List (List Char)
  | [] => [[]]
  | c :: cs =>
    if c = '.' then [] :: splitDots cs
    else
      match splitDots cs with
      | [] => [[c]]
      | part :: parts => (c :: part) :: parts

/-- The first part of the name of a migration. -/
def firstPart : List Char := ['m', 'i', 'g', 'r', 'a', 't', 'i', 'o', 'n']

/-- What the name of a migration tells: version, time and kind, as they are written. -/
def nameParts? (name : String) : Option (List Char × Option (List Char) × List Char) :=
  match splitDots name.toList with
  | [first, 'v' :: version, kind] =>
    if first = firstPart ∧ version ≠ [] ∧ kind ≠ [] then some (version, none, kind) else none
  | [first, 'v' :: version, time, kind] =>
    if first = firstPart ∧ version ≠ [] ∧ time ≠ [] ∧ kind ≠ [] then
      some (version, some time, kind)
    else none
  | _ => none

/-- The time that a part of a name writes; zero if there is none or it is no number. -/
def timeOf (part : Option (List Char)) : Int :=
  match part with
  | none => 0
  | some cs => (Width.int64.readChars cs).toOption.getD 0

/-- The migration that an entry of a directory is, if it is one. -/
def ofEntry? (e : DirectoryEntry) : Option Migration :=
  if !e.isFile then none
  else
    match nameParts? e.name with
    | none => none
    | some (version, time, kind) =>
      match Width.word32.readChars version with
      | .error _ => none
      | .ok v => some ⟨e.name, v.toNat, timeOf time, String.ofList kind, e.path⟩

/-! ## Order -/

/-- A migration comes before another, or neither comes first. -/
def le (a b : Migration) : Bool :=
  a.version < b.version || (a.version == b.version && a.time ≤ b.time)

/-- The migrations of a directory, by version and time. -/
def inOrder (entries : List DirectoryEntry) : List Migration :=
  (entries.filterMap ofEntry?).mergeSort le

end Migration

end AccountHistory
