import AccountHistory.Json.Printer
import AccountHistory.Json.Reader

/-!
# Spans of time already fetched

For each key of a collection the store remembers which span of time it holds. There are two spans:
the first pass fills history backwards from a start, the current pass goes on from there. Each bound
may be missing, which means that it has not been seen yet.

* `merge` widens: the earlier of two starts, the later of two ends, and of a bound and a missing one
  the bound. So merging is a semilattice, and repeated or reordered reports change nothing;
* a range travels as an object with four fields. The loose reader takes what it understands and
  leaves the rest unset; the strict reader refuses what it does not understand.
-/

namespace AccountHistory

/-! ## Ranges -/

/-- The spans of time fetched for one key, in milliseconds. -/
structure SyncRange where
  /-- earliest start of the first pass -/
  baseFrom : Option Int
  /-- latest end of the first pass -/
  baseTo : Option Int
  /-- earliest start of the current pass -/
  currFrom : Option Int
  /-- latest end of the current pass -/
  currTo : Option Int
  deriving DecidableEq, Repr

namespace SyncRange

/-- No bound has been seen. -/
def unset : SyncRange := ⟨none, none, none, none⟩

/-- A span of the first pass. -/
def base (start finish : Int) : SyncRange := ⟨some start, some finish, none, none⟩

/-- A span of the current pass. -/
def current (start finish : Int) : SyncRange := ⟨none, none, some start, some finish⟩

/-- The earlier of two times, or the one there is. -/
def earliest : Option Int → Option Int → Option Int
  | none, b => b
  | a, none => a
  | some a, some b => some (min a b)

/-- The later of two times, or the one there is. -/
def latest : Option Int → Option Int → Option Int
  | none, b => b
  | a, none => a
  | some a, some b => some (max a b)

/-- The range that covers both. -/
def merge (r s : SyncRange) : SyncRange where
  baseFrom := earliest r.baseFrom s.baseFrom
  baseTo := latest r.baseTo s.baseTo
  currFrom := earliest r.currFrom s.currFrom
  currTo := latest r.currTo s.currTo

/-- A start does not come after its end, where both are there. -/
def ordered : Option Int → Option Int → Bool
  | some a, some b => a ≤ b
  | _, _ => true

/-- Neither span starts after its end. -/
def isConsistent (r : SyncRange) : Bool :=
  ordered r.baseFrom r.baseTo && ordered r.currFrom r.currTo

/-- No bound has been seen. -/
def isEmpty (r : SyncRange) : Bool :=
  r == unset

/-- The latest time covered by either pass. -/
def coveredTo (r : SyncRange) : Option Int :=
  latest r.baseTo r.currTo

/-! ## Written forms -/

/-- A bound in a written range. -/
def boundText (b : Option Int) : String :=
  Text.optional (b.map toString)

/-- The range as messages show it. -/
def shown (r : SyncRange) : String :=
  "SyncRangeCheckpoint \x7b base_start_from: " ++ boundText r.baseFrom ++ ", base_start_to: "
    ++ boundText r.baseTo ++ ", curr_start: " ++ boundText r.currFrom ++ ", curr_end: "
    ++ boundText r.currTo ++ " \x7d"

/-- The fields of a range in a document. -/
def keys : List String := ["baseStartFrom", "baseStartTo", "currStart", "currEnd"]

/-- The range as a part of a document. -/
def toJson (r : SyncRange) : Json :=
  .obj (keys.zip ([r.baseFrom, r.baseTo, r.currFrom, r.currTo].map (Json.ofOption .int)))

/-! ## Reading -/

/-- A range read loosely: a bound that is no integer is unset, and so are all if the value is no
object. -/
def ofJson (v : Json) : SyncRange :=
  let bound (key : String) : Option Int := (v.field? key).bind Json.int64?
  ⟨bound "baseStartFrom", bound "baseStartTo", bound "currStart", bound "currEnd"⟩

/-- A bound read strictly: null is unset, an integer is itself, all else is refused. -/
def bound? : Json → Option (Option Int)
  | .null => some none
  | v => v.int64?.map some

/-- A field of a strictly read object: missing is unset, twice is refused. -/
def field? (fields : List (String × Json)) (key : String) : Option (Option Int) :=
  match fields.filter fun f => f.1 == key with
  | [] => some none
  | [f] => bound? f.2
  | _ => none

/-- A range read strictly: an object in which none of the four fields is repeated and none has a
value of another kind, or an array of the four bounds. -/
def ofJson? : Json → Option SyncRange
  | .obj fields => do
    return ⟨← field? fields "baseStartFrom", ← field? fields "baseStartTo",
      ← field? fields "currStart", ← field? fields "currEnd"⟩
  | .arr [a, b, c, d] => do return ⟨← bound? a, ← bound? b, ← bound? c, ← bound? d⟩
  | _ => none

/-- What is taken of a document that holds a range: its four fields. -/
def shape : Json.Shape := .record (keys.map fun key => (key, .taken))

/-- A range from the text of a document, read strictly. -/
def parse? (text : String) : Option SyncRange :=
  (Json.parseAs? shape text).bind ofJson?

/-! ## Laws -/

theorem earliest_comm (a b : Option Int) : earliest a b = earliest b a := by
  cases a <;> cases b <;> simp [earliest, Int.min_comm]

theorem latest_comm (a b : Option Int) : latest a b = latest b a := by
  cases a <;> cases b <;> simp [latest, Int.max_comm]

theorem earliest_assoc (a b c : Option Int) :
    earliest (earliest a b) c = earliest a (earliest b c) := by
  cases a <;> cases b <;> cases c <;> simp [earliest, Int.min_assoc]

theorem latest_assoc (a b c : Option Int) :
    latest (latest a b) c = latest a (latest b c) := by
  cases a <;> cases b <;> cases c <;> simp [latest, Int.max_assoc]

/-- Merging does not depend on the order of the two. -/
theorem merge_comm (r s : SyncRange) : r.merge s = s.merge r := by
  simp [merge, earliest_comm, latest_comm]

/-- Merging does not depend on how several are grouped. -/
theorem merge_assoc (r s t : SyncRange) : (r.merge s).merge t = r.merge (s.merge t) := by
  simp [merge, earliest_assoc, latest_assoc]

/-- Merging a range with itself changes nothing. -/
theorem merge_self (r : SyncRange) : r.merge r = r := by
  rcases r with ⟨a, b, c, d⟩
  cases a <;> cases b <;> cases c <;> cases d <;> simp [merge, earliest, latest]

end SyncRange

/-! ## Entries -/

/-- The symbol of collections that are not split by symbol. -/
def everySymbol : String := "_ALL"

/-- The range of one key of a collection. -/
structure TrackedRange where
  /-- the symbol -/
  symbol : String
  /-- the timeframe, for collections that have one -/
  timeframe : Option String
  /-- what is fetched -/
  range : SyncRange
  deriving DecidableEq, Repr

namespace TrackedRange

/-- The entry is the one of a symbol and timeframe. -/
def isFor (e : TrackedRange) (symbol : String) (timeframe : Option String) : Bool :=
  e.symbol == symbol && e.timeframe == timeframe

/-- The entry as a part of a document. -/
def toJson (e : TrackedRange) : Json :=
  .obj [("symbol", .str e.symbol), ("timeframe", Json.ofOption .str e.timeframe),
    ("range", e.range.toJson)]

/-- A timeframe read strictly: null is none. -/
def timeframe? : Json → Option (Option String)
  | .null => some none
  | .str s => some (some s)
  | _ => none

/-- The only value of a field; `none` if it is missing or repeated. -/
def single? (fields : List (String × Json)) (key : String) : Option Json :=
  match fields.filter fun f => f.1 == key with
  | [f] => some f.2
  | _ => none

/-- The value of a field that may be missing, which is as good as null; `none` if it is repeated. -/
def optional? (fields : List (String × Json)) (key : String) : Option Json :=
  match fields.filter fun f => f.1 == key with
  | [] => some .null
  | [f] => some f.2
  | _ => none

/-- An entry read strictly, from an object or from an array of its parts. -/
def ofJson? : Json → Option TrackedRange
  | .obj fields => do
    let symbol ← (← single? fields "symbol").string?
    let timeframe ← timeframe? (← optional? fields "timeframe")
    let range ← SyncRange.ofJson? (← single? fields "range")
    return ⟨symbol, timeframe, range⟩
  | .arr [a, b, c] => do
    return ⟨← a.string?, ← timeframe? b, ← SyncRange.ofJson? c⟩
  | _ => none

/-- What is taken of a document that holds an entry. -/
def shape : Json.Shape :=
  .record [("symbol", .taken), ("timeframe", .taken), ("range", SyncRange.shape)]

/-- An entry from the text of a document, read strictly. -/
def parse? (text : String) : Option TrackedRange :=
  (Json.parseAs? shape text).bind ofJson?

end TrackedRange

end AccountHistory
