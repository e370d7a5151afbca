import AccountHistory.Sync.Range

/-!
# Tracking ranges and planning what to fetch

A collection keeps one entry for each symbol and timeframe. A report of fetched time is merged into
the entry of its key, or becomes an entry at the end. What to fetch next is what comes after the
latest time covered, or everything from the configured start if nothing is covered.
-/

namespace AccountHistory

/-! ## Merging reports -/

/-- What merging a report did. -/
inductive MergeResult where
  /-- the key is new -/
  | inserted
  /-- the key has an entry, and whether one of its bounds moved -/
  | merged (changed : Bool)
  deriving DecidableEq, Repr

namespace TrackedRange

/-- Merges a report into the entries of a collection. -/
def mergeInto (symbol : String) (timeframe : Option String) (incoming : SyncRange) :
    List TrackedRange → List TrackedRange × MergeResult
  | [] => ([⟨symbol, timeframe, incoming⟩], .inserted)
  | e :: rest =>
    if e.isFor symbol timeframe then
      let merged := e.range.merge incoming
      ({ e with range := merged } :: rest, .merged (merged != e.range))
    else
      let (rest', outcome) := mergeInto symbol timeframe incoming rest
      (e :: rest', outcome)

/-- The range of a symbol and timeframe, if it is tracked. -/
def trackedRange? (entries : List TrackedRange) (symbol : String) (timeframe : Option String) :
    Option SyncRange :=
  (entries.find? fun e => e.isFor symbol timeframe).map TrackedRange.range

end TrackedRange

/-! ## Planning -/

/-- The pass that a window belongs to. -/
inductive Pass where
  /-- the first filling, from the configured start -/
  | base
  /-- what comes after all that is covered -/
  | current
  deriving DecidableEq, Repr

/-- A span of time to fetch, both ends included, in milliseconds. -/
structure FetchWindow where
  /-- the first millisecond -/
  start : Int
  /-- the last millisecond -/
  finish : Int
  /-- the pass it extends -/
  pass : Pass
  deriving DecidableEq, Repr

namespace FetchWindow

/-- The millisecond after a time; the last of all times has none and stands for itself. -/
def after (t : Int) : Int :=
  if t < Width.int64.greatest then t + 1 else t

/-- The next span of time to fetch, up to `now`; `none` if all is covered. -/
def plan (tracked : Option SyncRange) (configuredStart : Option Int) (now : Int) :
    Option FetchWindow :=
  let (start, pass) : Int × Pass :=
    match tracked.bind SyncRange.coveredTo with
    | some finish => (after finish, .current)
    | none => (configuredStart.getD 0, .base)
  if start ≤ now then some ⟨start, now, pass⟩ else none

/-- The name of a pass as messages show it. -/
def passText : Pass → String
  | .base => "Base"
  | .current => "Current"

/-- A window as messages show it. -/
def shown (w : FetchWindow) : String :=
  "FetchWindow \x7b start: " ++ toString w.start ++ ", end: " ++ toString w.finish ++ ", pass: "
    ++ passText w.pass ++ " \x7d"

end FetchWindow

/-! ## Cutting off -/

/-- The date of the newest row: of the first row of an array, which is sorted newest first, or of a
single row. -/
def newestTime? (field : String) (v : Json) : Option Int :=
  let row := match v with
    | .arr rows => rows.head?
    | row => some row
  (row.bind fun r => r.field? field).bind Json.int64?

/-- The stored date at which to stop fetching: the newest stored one, if it is earlier than the
newest fetched one. -/
def fetchCutoff? (field : String) (stored fetched : Json) : Option Int :=
  match newestTime? field stored, newestTime? field fetched with
  | some s, some f => if s < f then some s else none
  | _, _ => none

end AccountHistory
