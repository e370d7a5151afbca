import AccountHistory.Sql.Token
import AccountHistory.Sql.Value

/-!
# Tokens ahead

A statement text is read token by token. A reader of a part takes the tokens ahead and gives the
part and the tokens behind it, or nothing if the part is not ahead. Here are the readers of single
tokens, of names and of types.
-/

namespace AccountHistory.Sql

/-- A reader of a part. -/
abbrev Reader (α : Type) := List Token → Option (α × List Token)

/-! ## Keywords and marks -/

/-- The word is the keyword `k`, in whatever case. -/
def Token.isKeyword (k : String) : Token → Bool
  | .word s => Text.fold s == k
  | _ => false

/-- Reads one keyword. -/
def readKeyword (k : String) : List Token → Option (List Token)
  | t :: ts => if t.isKeyword k then some ts else none
  | [] => none

/-- Reads keywords one after the other. -/
def readKeywords : List String → List Token → Option (List Token)
  | [], ts => some ts
  | k :: ks, ts => (readKeyword k ts).bind (readKeywords ks)

/-- Reads one mark. -/
def readMark (m : String) : List Token → Option (List Token)
  | .mark s :: ts => if s = m then some ts else none
  | _ => none

/-- Reads keywords if they are ahead, and says whether they were. -/
def readIf (ks : List String) (ts : List Token) : Bool × List Token :=
  match readKeywords ks ts with
  | some rest => (true, rest)
  | none => (false, ts)

/-- Reads parts with commas between them, at least one and at most as many as the bound says. -/
def readSeries {α : Type} (one : Reader α) : Nat → Reader (List α)
  | 0, _ => none
  | fuel + 1, ts => do
    let (a, ts) ← one ts
    match readMark "," ts with
    | none => return ([a], ts)
    | some ts =>
      let (rest, ts) ← readSeries one fuel ts
      return (a :: rest, ts)

/-- Reads parts with commas between them in brackets, at least one. -/
def readList {α : Type} (one : Reader α) : Reader (List α) := fun ts => do
  let ts ← readMark "(" ts
  let (parts, ts) ← readSeries one ts.length ts
  let ts ← readMark ")" ts
  return (parts, ts)

/-! ## Names -/

/-- Reads a name: one in quotes, or a word that is not reserved. -/
def readName : Reader String
  | .name s _ :: ts | .text s :: ts => some (s, ts)
  | .word s :: ts => if isFreeWord s then some (s, ts) else none
  | _ => none

/-- The name under which the database itself may be mentioned in front of a table. -/
def databaseName : String := "main"

/-- Reads a name, perhaps behind that of a database. -/
def readDottedName : Reader (Option String × String) := fun ts => do
  let (name, ts) ← readName ts
  match readMark "." ts with
  | none => return ((none, name), ts)
  | some ts =>
    let (second, ts) ← readName ts
    return ((some name, second), ts)

/-- Reads the name of a table, perhaps behind that of the database itself. -/
def readTableName : Reader String := fun ts => do
  let ((database, name), ts) ← readDottedName ts
  if database.all (Text.sameFold databaseName) then return (name, ts) else none

/-- Reads the name of what is made. It is not the bare word that would begin a condition. -/
def readNewName : Reader String := fun ts => do
  let isCondition (ts : List Token) : Bool := (readKeyword "if" ts).isSome
  let behindDot := match readMark "." (ts.drop 1) with
    | some ts => isCondition ts
    | none => false
  if isCondition ts || behindDot then none else readTableName ts

/-! ## Types -/

/-- Reads the words of the name of a type. -/
def readTypeWords : List Token → List String × List Token
  | .word s :: ts =>
    if isFreeWord s && !wordsOfJoins.contains (Text.fold s) then
      let (ws, rest) := readTypeWords ts
      (s :: ws, rest)
    else ([], .word s :: ts)
  | .name s _ :: ts | .text s :: ts =>
    let (ws, rest) := readTypeWords ts
    (s :: ws, rest)
  | ts => ([], ts)

/-- Reads a number with its sign, written without separators. -/
def readSize (ts : List Token) : Option (List Token) :=
  match (readMark "-" ts).getD ((readMark "+" ts).getD ts) with
  | .number written :: ts => if written.contains '_' then none else some ts
  | _ => none

/-- Reads the numbers in brackets behind the name of a type, if there are any, and says whether
there are. -/
def readTypeSizes : Reader Bool := fun ts =>
  match readMark "(" ts with
  | none => some (false, ts)
  | some ts => do
    let ts ← readSize ts
    let ts ← match readMark "," ts with
      | none => some ts
      | some ts => readSize ts
    let ts ← readMark ")" ts
    return (true, ts)

/-- The name of a type as it is read. -/
structure TypeName where
  /-- its words -/
  name : String
  /-- numbers in brackets stand behind it -/
  isSized : Bool

/-- Reads the name of a type, which may be empty. -/
def readTypeName : Reader TypeName := fun ts =>
  let (ws, rest) := readTypeWords ts
  if ws.isEmpty then some (⟨"", false⟩, rest)
  else (readTypeSizes rest).map fun (isSized, ts) => (⟨" ".intercalate ws, isSized⟩, ts)

end AccountHistory.Sql
