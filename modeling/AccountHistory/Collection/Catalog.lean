import AccountHistory.Collection.Collection
import AccountHistory.Schema.Tables

/-!
# Catalogs of collections

A catalog lists collections in a fixed order, each name once. Before a list becomes a catalog each
collection is checked: the columns that it names are there, rows of single users can be told apart
and shared rows belong to nobody, pages are not empty. What is hidden must show the rows of a
collection that is there and not hidden itself; this is checked last, so that the order of the list
does not matter.
-/

namespace AccountHistory

open Text

/-! ## Errors -/

/-- Why collections make no catalog. -/
inductive CatalogError where
  /-- two of one name -/
  | duplicate (collection : String)
  /-- pages without rows -/
  | noPage (collection : String)
  /-- something in place of a column of the model -/
  | unknownField (collection role field : String)
  /-- shared rows that belong to a user -/
  | sharedWithOwner (collection : String)
  /-- rows of single users that do not say of whom -/
  | personalWithoutOwner (collection : String)
  /-- a hidden collection that shows nothing -/
  | invalidSource (collection : String) (source : Option String)
  deriving DecidableEq, Repr

/-- The wording of an error. -/
def CatalogError.message : CatalogError → String
  | .duplicate c => "collection " ++ quote c ++ " is registered twice"
  | .noPage c => "collection " ++ quote c ++ " must have a positive max limit"
  | .unknownField c role field =>
    "collection " ++ quote c ++ ": " ++ role ++ " field " ++ quote field ++ " is not a model column"
  | .sharedWithOwner c => "public collection " ++ quote c ++ " carries a user_id column"
  | .personalWithoutOwner c => "private collection " ++ quote c ++ " has no user_id column"
  | .invalidSource c source =>
    "hidden collection " ++ quote c ++ " has no usable source collection ("
      ++ Text.optional (source.map quote) ++ ")"

/-! ## Checks of one collection -/

namespace Collection

/-- The columns that a collection names, each with the role it plays. -/
def fieldRoles (c : Collection) : List (String × String) :=
  c.dateField.toList.map (("date", ·)) ++ c.symbolField.toList.map (("symbol", ·))
    ++ c.timeframeField.toList.map (("timeframe", ·)) ++ c.sort.map fun s => ("sort", s.1)

/-- What is wrong with a collection by itself. -/
def fault? (c : Collection) : Option CatalogError :=
  match c.fieldRoles.find? fun r => !c.model.hasColumn r.2 with
  | some (role, field) => some (.unknownField c.name role field)
  | none =>
    let hasOwner := c.model.hasColumn Tables.userColumn
    match c.visibility with
    | .hidden => none
    | .shared =>
      if hasOwner then some (.sharedWithOwner c.name)
      else if c.pageLimit = 0 then some (.noPage c.name) else none
    | .personal =>
      if !hasOwner then some (.personalWithoutOwner c.name)
      else if c.pageLimit = 0 then some (.noPage c.name) else none

/-- The collection is one of those that a user sees as shared, or as their own. -/
def isOf (c : Collection) (isShared : Bool) : Bool :=
  c.visibility == if isShared then .shared else .personal

/-- The collection is hidden. -/
def isHidden (c : Collection) : Bool :=
  c.visibility == .hidden

end Collection

/-! ## Catalogs -/

/-- Collections in order, each name once. -/
structure Catalog where
  /-- the collections -/
  collections : List Collection
  deriving DecidableEq, Repr

namespace Catalog

/-- The collection of a name. -/
def find? (name : String) (cs : List Collection) : Option Collection :=
  cs.find? fun c => c.name == name

/-- The first collection that is wrong by itself or repeats a name of one before it. -/
def firstFault? (seen : List String) : List Collection → Option CatalogError
  | [] => none
  | c :: cs =>
    match c.fault? with
    | some e => some e
    | none =>
      if seen.contains c.name then some (.duplicate c.name)
      else firstFault? (c.name :: seen) cs

/-- The source of a collection is there and not hidden. -/
def hasSource (cs : List Collection) (c : Collection) : Bool :=
  match c.source.bind fun s => find? s cs with
  | some source => !source.isHidden
  | none => false

/-- The first hidden collection that shows nothing. -/
def firstOrphan? (cs : List Collection) : Option CatalogError :=
  (cs.find? fun c => c.isHidden && !hasSource cs c).map fun c => .invalidSource c.name c.source

/-- The catalog of collections, if nothing is wrong with them. -/
def ofCollections (cs : List Collection) : Except CatalogError Catalog :=
  match firstFault? [] cs with
  | some e => .error e
  | none =>
    match firstOrphan? cs with
    | some e => .error e
    | none => .ok ⟨cs⟩

/-- The collection of a name. -/
def get? (catalog : Catalog) (name : String) : Option Collection :=
  find? name catalog.collections

/-- The names of the collections, in order. -/
def names (catalog : Catalog) : List String :=
  catalog.collections.map Collection.name

/-- The shared collections, or those of single users, in order. -/
def ofSharing (catalog : Catalog) (isShared : Bool) : List Collection :=
  catalog.collections.filter fun c => c.isOf isShared

/-- The tables of the collections with their models: hidden collections have none of their own. -/
def tables (catalog : Catalog) : List (String × Model) :=
  (catalog.collections.filter fun c => !c.isHidden).map fun c => (c.name, c.model)

/-- Copies of the collections for a run, without some of their traits. -/
def copies (catalog : Catalog) (omitted : List Collection.Trait) : List Collection :=
  catalog.collections.map fun c => omitted.foldl Collection.without c

/-- The shared collections of a run, or those of single users, that have something new. -/
def fresh (run : List Collection) (isShared : Bool) : List Collection :=
  run.filter fun c => c.isOf isShared && c.isFresh

/-- The run with the collection of a name replaced. -/
def replace (run : List Collection) (c : Collection) : List Collection :=
  run.map fun d => if d.name == c.name then c else d

end Catalog

end AccountHistory
