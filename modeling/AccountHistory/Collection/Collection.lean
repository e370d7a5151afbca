import AccountHistory.Schema.Model
import AccountHistory.Sync.Plan

/-!
# Collections

A collection is what is fetched by one method: which table holds its rows, which columns carry its
times, symbols and timeframes, how pages are sorted, who may see it. Of a run it also keeps whether
there is something new and the spans of time fetched so far.

A hidden collection is never fetched; it is a view of the rows of another one, its source. Where a
source is named, its name is the name of the table.
-/

namespace AccountHistory

open Text

/-! ## Traits -/

/-- Whom the rows of a collection are for. -/
inductive Visibility where
  /-- each user has rows of their own -/
  | personal
  /-- all users share the rows -/
  | shared
  /-- a view of another collection -/
  | hidden
  deriving DecidableEq, Repr

/-- What happens to the stored rows of a collection. -/
inductive Mutability where
  /-- rows are only added -/
  | insertable
  /-- rows are replaced -/
  | updatable
  deriving DecidableEq, Repr

/-- The order of the rows of a page by one column. -/
inductive SortDirection where
  /-- the smallest first -/
  | ascending
  /-- the largest first -/
  | descending
  deriving DecidableEq, Repr

/-- The name of a trait as messages show it. -/
def Visibility.shown : Visibility → String
  | .personal => "Private"
  | .shared => "Public"
  | .hidden => "Hidden"

/-- The name of a trait as messages show it. -/
def Mutability.shown : Mutability → String
  | .insertable => "Insertable"
  | .updatable => "Updatable"

/-- The name of a direction as messages show it. -/
def SortDirection.shown : SortDirection → String
  | .ascending => "Asc"
  | .descending => "Desc"

/-- The keyword of a direction. -/
def SortDirection.keyword : SortDirection → String
  | .ascending => "ASC"
  | .descending => "DESC"

/-- The direction that a keyword names. -/
def SortDirection.ofKeyword? : String → Option SortDirection
  | "ASC" => some .ascending
  | "DESC" => some .descending
  | _ => none

/-! ## The collection -/

/-- What is fetched by one method, and how. -/
structure Collection where
  /-- its name -/
  name : String
  /-- the method that fetches it -/
  method : String
  /-- the model of its table -/
  model : Model
  /-- the most rows of a page -/
  pageLimit : Nat
  /-- the column of the time of a row -/
  dateField : Option String
  /-- the column of the symbol of a row -/
  symbolField : Option String
  /-- the column of the timeframe of a row -/
  timeframeField : Option String
  /-- the order of the rows of a page -/
  sort : List (String × SortDirection)
  /-- whom the rows are for -/
  visibility : Visibility
  /-- what happens to stored rows -/
  mutability : Mutability
  /-- nothing works before it has been fetched once -/
  isRequired : Bool
  /-- the setting that says where fetching starts -/
  startKey : Option String
  /-- the collection that it is a view of -/
  source : Option String
  /-- the column whose arrays and objects are stored as text -/
  textField : Option String
  /-- there is something new to fetch -/
  isFresh : Bool
  /-- the spans of time fetched so far -/
  tracked : List TrackedRange
  deriving DecidableEq, Repr

namespace Collection

/-- A collection of which only the necessary is said. -/
def new (name method : String) (model : Model) (pageLimit : Nat) : Collection where
  name := name
  method := method
  model := model
  pageLimit := pageLimit
  dateField := none
  symbolField := none
  timeframeField := none
  sort := []
  visibility := .personal
  mutability := .insertable
  isRequired := false
  startKey := none
  source := none
  textField := none
  isFresh := false
  tracked := []

/-- The collection with a column of times, newest rows first. -/
def dated (c : Collection) (field : String) : Collection :=
  { c with dateField := some field, sort := [(field, .descending)] }

/-- The collection with a column of symbols. -/
def bySymbol (c : Collection) (field : String) : Collection :=
  { c with symbolField := some field }

/-- The collection with a column of timeframes. -/
def byTimeframe (c : Collection) (field : String) : Collection :=
  { c with timeframeField := some field }

/-- The collection with another order of rows. -/
def sortedBy (c : Collection) (sort : List (String × SortDirection)) : Collection :=
  { c with sort := sort }

/-- The collection, shared by all users. -/
def forAll (c : Collection) : Collection :=
  { c with visibility := .shared }

/-- The collection as a hidden view of another one. -/
def asViewOf (c : Collection) (source : String) : Collection :=
  { c with visibility := .hidden, source := some source }

/-- The collection with rows that are replaced. -/
def updatable (c : Collection) : Collection :=
  { c with mutability := .updatable }

/-- The collection, to be fetched before anything works. -/
def required (c : Collection) : Collection :=
  { c with isRequired := true }

/-- The collection with a setting for its start. -/
def startingAt (c : Collection) (key : String) : Collection :=
  { c with startKey := some key }

/-- The collection with a column that holds text of arrays and objects. -/
def asText (c : Collection) (field : String) : Collection :=
  { c with textField := some field }

/-- The name of the table with its rows. -/
def table (c : Collection) : String :=
  c.source.getD c.name

/-! ## Forgetting -/

/-- What a copy of a collection can leave out. -/
inductive Trait where
  | date
  | symbol
  | timeframe
  | sort
  | startKey
  | textField
  | fresh
  | tracked
  | required
  deriving DecidableEq, Repr

/-- The collection without one of its traits. -/
def without (c : Collection) : Trait → Collection
  | .date => { c with dateField := none }
  | .symbol => { c with symbolField := none }
  | .timeframe => { c with timeframeField := none }
  | .sort => { c with sort := [] }
  | .startKey => { c with startKey := none }
  | .textField => { c with textField := none }
  | .fresh => { c with isFresh := false }
  | .tracked => { c with tracked := [] }
  | .required => { c with isRequired := false }

/-! ## Rows and ranges -/

/-- A value as a column of text holds it: arrays and objects are written out, with their fields in
order. -/
def textValue (v : Json) : Json :=
  if v.isNested then .str (v.text .byName) else v

/-- A fetched row as it is stored. -/
def storedRow (c : Collection) (row : List (String × Json)) : List (String × Json) :=
  match c.textField with
  | none => row
  | some field => row.map fun f => if f.1 = field then (f.1, textValue f.2) else f

/-- Merges a report of fetched time. -/
def report (c : Collection) (symbol : String) (timeframe : Option String) (range : SyncRange) :
    Collection × MergeResult :=
  let (tracked, outcome) := TrackedRange.mergeInto symbol timeframe range c.tracked
  ({ c with tracked := tracked }, outcome)

/-- The span of time fetched for a symbol and timeframe. -/
def trackedRange? (c : Collection) (symbol : String) (timeframe : Option String) :
    Option SyncRange :=
  TrackedRange.trackedRange? c.tracked symbol timeframe

/-! ## Shown -/

/-- The entry of a range as messages show it. -/
def entryShown (e : TrackedRange) : String :=
  "RangeEntry \x7b symbol: " ++ quote e.symbol ++ ", timeframe: "
    ++ Text.optional (e.timeframe.map quote) ++ ", range: " ++ e.range.shown ++ " \x7d"

/-- One item of the order of rows as messages show it. -/
def sortShown (s : String × SortDirection) : String :=
  "(" ++ quote s.1 ++ ", " ++ s.2.shown ++ ")"

/-- A truth value as messages show it. -/
def truth (b : Bool) : String :=
  if b then "true" else "false"

/-- The parts of a collection that messages show, by name. -/
def parts (c : Collection) : List (String × String) :=
  let field (f : Option String) : String := Text.optional (f.map quote)
  [("name", quote c.name),
   ("api_method", quote c.method),
   ("max_limit", toString c.pageLimit),
   ("date_field_name", field c.dateField),
   ("symbol_field_name", field c.symbolField),
   ("timeframe_field_name", field c.timeframeField),
   ("sort", listing (c.sort.map sortShown)),
   ("visibility", c.visibility.shown),
   ("mutability", c.mutability.shown),
   ("is_sync_required_at_least_once", truth c.isRequired),
   ("conf_name", field c.startKey),
   ("source_collection", field c.source),
   ("row_transformer", truth c.textField.isSome),
   ("has_new_data", truth c.isFresh),
   ("start", listing (c.tracked.map entryShown))]

/-- The collection as messages show it. -/
def shown (c : Collection) : String :=
  "CollectionDescriptor \x7b " ++ ", ".intercalate (c.parts.map fun p => p.1 ++ ": " ++ p.2)
    ++ ", .. \x7d"

end Collection

end AccountHistory
