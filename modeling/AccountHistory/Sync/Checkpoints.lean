import AccountHistory.Collection.Collection
import AccountHistory.Store.Session

/-!
# Checkpoints

The spans of time fetched so far are kept in a table, one row for each owner, collection, symbol and
timeframe. An owner is everybody, a user, or a sub-account of a user; a row without a timeframe has
an empty one, so that the column can be part of unique indexes.

A report never replaces what is stored: the two are merged, so that coverage only grows. A report
that would leave a start behind its end is refused, and nothing changes.
-/

namespace AccountHistory

open Store Sql

/-! ## Owners and keys -/

/-- Whose rows a checkpoint is about. -/
inductive CheckpointOwner where
  /-- rows shared by all users -/
  | everybody
  /-- the rows of a user, or of a sub-account of that user -/
  | user (id : Int) (sub : Option Int)
  deriving DecidableEq, Repr

/-- What a checkpoint is about. -/
structure CheckpointKey where
  /-- whose rows -/
  owner : CheckpointOwner
  /-- of which collection -/
  collection : String
  /-- of which symbol -/
  symbol : String
  /-- of which timeframe -/
  timeframe : Option String
  deriving DecidableEq, Repr

/-- Why a checkpoint is not stored or read. -/
inductive CheckpointError where
  /-- a start would come after its end -/
  | inconsistent (collection symbol : String) (range : SyncRange)
  /-- a statement fails -/
  | store (fault : Fault)
  deriving DecidableEq, Repr

/-- The wording of an error. -/
def CheckpointError.message : CheckpointError → String
  | .inconsistent collection symbol range =>
    "inconsistent range for " ++ collection ++ "/" ++ symbol ++ ": " ++ range.shown
  | .store fault => fault.message

namespace Checkpoints

/-! ## Rows -/

/-- The table of checkpoints. -/
def table : String := "syncRangeCheckpoints"

/-- The columns of the bounds of a range, in the order of its fields. -/
def boundColumns : List String := ["baseStartFrom", "baseStartTo", "currStart", "currEnd"]

/-- The column of the identifier of a row. -/
def idColumn : String := "_id"

/-- The columns that are read of a row. -/
def readColumns : List String := [idColumn, "symbol", "timeframe"] ++ boundColumns

/-- The columns by which the rows of an owner are found. -/
def ownerColumns : CheckpointOwner → List String
  | .everybody => ["collName", "user_id"]
  | .user _ _ => ["collName", "user_id", "subUserId"]

/-- The column of the time of the last change. -/
def changedColumn : String := "updatedAt"

/-- The column of the time of making. -/
def madeColumn : String := "createdAt"

/-- A number, or no value. -/
def number : Option Int → Value
  | none => .null
  | some n => .int n

/-- The text of a timeframe in its column. -/
def timeframeText (timeframe : Option String) : String :=
  timeframe.getD ""

/-- The bounds of a range with their columns. -/
def bounds (r : SyncRange) : List (String × Value) :=
  boundColumns.zip ([r.baseFrom, r.baseTo, r.currFrom, r.currTo].map number)

/-! ## Finding rows -/

/-- A column of a row equals a value. -/
def isEqual (t : Table) (r : Row) (column : String) (v : Value) : Bool :=
  (t.operand? r column).any fun a => a.value != .null && a.same ⟨v, none⟩

/-- A column of a row has no value. -/
def isMissing (t : Table) (r : Row) (column : String) : Bool :=
  t.value? r column == some .null

/-- The row belongs to an owner and a collection. -/
def isOf (owner : CheckpointOwner) (collection : String) (t : Table) (r : Row) : Bool :=
  isEqual t r "collName" (.text collection) &&
    match owner with
    | .everybody => isMissing t r "user_id"
    | .user id sub =>
      isEqual t r "user_id" (.int id) &&
        match sub with
        | none => isMissing t r "subUserId"
        | some n => isEqual t r "subUserId" (.int n)

/-- The row is the one of a key. -/
def isFor (key : CheckpointKey) (t : Table) (r : Row) : Bool :=
  isOf key.owner key.collection t r && isEqual t r "symbol" (.text key.symbol)
    && isEqual t r "timeframe" (.text (timeframeText key.timeframe))

/-- The table of checkpoints, with all the columns that are asked for. -/
def tableOf (db : Database) (owner : CheckpointOwner) : Except Fault Table :=
  match db.getTable table with
  | .error e => .error e
  | .ok t =>
    match t.missing? (readColumns ++ ownerColumns owner) with
    | some c => .error (.refused (.noSuchColumn c))
    | none => .ok t

/-! ## Reading rows -/

/-- A stored checkpoint. -/
structure StoredRange where
  /-- the identifier of its row -/
  id : Int
  /-- the symbol -/
  symbol : String
  /-- the timeframe, empty for none -/
  timeframe : String
  /-- the range -/
  range : SyncRange
  deriving DecidableEq, Repr

/-- The range in a row. -/
def rangeOf (t : Table) (r : Row) : SyncRange :=
  let bound (column : String) : Option Int :=
    match t.value? r column with
    | none | some .null => none
    | some v => some v.integer
  ⟨bound "baseStartFrom", bound "baseStartTo", bound "currStart", bound "currEnd"⟩

/-- The text in a column of a row. -/
def textOf (t : Table) (r : Row) (column : String) : Except Fault String :=
  match (t.value? r column).bind Value.shown? with
  | some s => .ok s
  | none => .error (.refused (.noValue column))

/-- What is stored in a row. -/
def storedRange (t : Table) (r : Row) : Except Fault StoredRange := do
  let symbol ← textOf t r "symbol"
  let timeframe ← textOf t r "timeframe"
  match t.value? r idColumn with
  | none | some .null => .error (.refused (.noValue idColumn))
  | some id => return ⟨id.integer, symbol, timeframe, rangeOf t r⟩

/-- What is stored in the row of a key, if there is one. -/
def find (t : Table) (key : CheckpointKey) : Except Fault (Option StoredRange) :=
  (t.rows.find? (isFor key t)).mapM (storedRange t)

/-- The entry of a stored checkpoint. -/
def StoredRange.entry (stored : StoredRange) : TrackedRange :=
  ⟨stored.symbol, if stored.timeframe = "" then none else some stored.timeframe, stored.range⟩

/-- The rows of an owner and a collection, in the order of their identifiers. -/
def rowsOf (t : Table) (owner : CheckpointOwner) (collection : String) : List Row :=
  let id (r : Row) : Value := (t.value? r idColumn).getD .null
  (t.rows.filter (isOf owner collection t)).mergeSort fun a b => (id a).compare (id b) != .gt

/-- The entries of an owner and a collection, in the order of their making. -/
def load (db : Database) (owner : CheckpointOwner) (collection : String) :
    Except CheckpointError (List TrackedRange) :=
  (do
    let t ← tableOf db owner
    let stored ← (rowsOf t owner collection).mapM (storedRange t)
    return stored.map StoredRange.entry : Except Fault _).mapError .store

/-- The range of a key, if there is one. -/
def get (db : Database) (key : CheckpointKey) : Except CheckpointError (Option SyncRange) :=
  (do
    let stored ← find (← tableOf db key.owner) key
    return stored.map StoredRange.range : Except Fault _).mapError .store

/-- The number of checkpoints. -/
def count (db : Database) : Except CheckpointError Nat :=
  match db.getTable table with
  | .error e => .error (.store e)
  | .ok t => .ok t.rows.length

/-! ## Writing -/

/-- The values of a new row. -/
def newRow (key : CheckpointKey) (range : SyncRange) (clock : Int) : List (String × Value) :=
  let (user, sub) : Option Int × Option Int :=
    match key.owner with
    | .everybody => (none, none)
    | .user id sub => (some id, sub)
  [("user_id", number user), ("subUserId", number sub), ("collName", .text key.collection),
   ("symbol", .text key.symbol), ("timeframe", .text (timeframeText key.timeframe))]
    ++ bounds range ++ [(madeColumn, .int clock), (changedColumn, .int clock)]

/-- The database with a range in the row of a key: in the stored one, or in a new one. Of a new row
only what has a value is written. -/
def write (s : Session) (stored : Option StoredRange) (key : CheckpointKey) (range : SyncRange) :
    Except Fault Database :=
  match stored with
  | some found =>
    s.database.update s.terms table (fun t r => isEqual t r idColumn (.int found.id))
      (bounds range ++ [(changedColumn, .int s.clock)])
  | none =>
    let row := (newRow key range s.clock).filter fun c => c.2 != .null
    s.database.insert s.terms false table (row.map Prod.fst) [row.map Prod.snd]

/-- Merges a report into the checkpoint of a key: the merged range, and the session in which it is
stored. -/
def upsert (s : Session) (key : CheckpointKey) (report : SyncRange) :
    Except CheckpointError (SyncRange × Session) :=
  match (tableOf s.database key.owner).bind fun t => find t key with
  | .error e => .error (.store e)
  | .ok stored =>
    let range := (stored.map StoredRange.range).elim report fun r => r.merge report
    if range.isConsistent then
      match write s stored key range with
      | .error e => .error (.store e)
      | .ok db => .ok (range, s.withDatabase db)
    else .error (.inconsistent key.collection key.symbol range)

end Checkpoints

/-- The collection with stored entries merged into what it tracks. -/
def Collection.withEntries (c : Collection) (entries : List TrackedRange) : Collection :=
  entries.foldl (fun c e => (c.report e.symbol e.timeframe e.range).1) c

end AccountHistory
