import AccountHistory.Json.Printer
import AccountHistory.Json.Reader
import AccountHistory.Schema.Model

/-!
# Model definitions

A definition is a model as an author writes it in a document: names and values in order, columns and
service entries side by side. Four names are service keys and hold constraints, triggers and
indexes; every other name is a column and its value the spelling of a type. A service value may be
written as a single text or as a list.
-/

namespace AccountHistory

open Text

/-! ## Values -/

/-- The value of one entry. -/
inductive Declaration where
  /-- a type, a single constraint or trigger, or the column of a one-column index -/
  | scalar (text : String)
  /-- several constraints or triggers, or the columns of one index -/
  | list (items : List String)
  /-- several indexes -/
  | nested (lists : List (List String))
  deriving DecidableEq, Repr

namespace Declaration

/-- The written form of a value in complaints. -/
def shown : Declaration → String
  | .scalar text => "Scalar(" ++ quote text ++ ")"
  | .list items => "List(" ++ listing (items.map quote) ++ ")"
  | .nested lists => "Nested(" ++ listing (lists.map fun l => listing (l.map quote)) ++ ")"

/-- A value from a document: a string, a list of strings or a list of lists of strings. The empty
list is a list of strings. -/
def ofJson? : Json → Option Declaration
  | .str s => some (.scalar s)
  | .arr items =>
    match items.mapM Json.string? with
    | some texts => some (.list texts)
    | none => (items.mapM Json.strings?).map .nested
  | _ => none

/-- A value as a part of a document. -/
def toJson : Declaration → Json
  | .scalar text => .str text
  | .list items => .arr (items.map .str)
  | .nested lists => .arr (lists.map fun l => .arr (l.map .str))

end Declaration

/-! ## Definitions -/

/-- A model as it is written: the names are distinct. -/
structure Definition where
  /-- names and values in the order of writing -/
  entries : List (String × Declaration)
  deriving DecidableEq, Repr

namespace Definition

/-- Puts a value under a name: in the place of the value that has the name, else at the end. -/
def putEntry (name : String) (value : Declaration) :
    List (String × Declaration) → List (String × Declaration)
  | [] => [(name, value)]
  | (k, v) :: rest =>
    if k = name then (k, value) :: rest else (k, v) :: putEntry name value rest

/-- Nothing defined. -/
def empty : Definition := ⟨[]⟩

/-- One more entry; a repeated name replaces the value at its first place. -/
def add (d : Definition) (name : String) (value : Declaration) : Definition :=
  ⟨putEntry name value d.entries⟩

/-- A definition from entries in order. -/
def ofEntries (entries : List (String × Declaration)) : Definition :=
  entries.foldl (fun d e => d.add e.1 e.2) empty

/-- A definition from the value of a document. -/
def ofJson? (v : Json) : Option Definition := do
  let fields ← v.object?
  let entries ← fields.mapM fun f => (Declaration.ofJson? f.2).map fun value => (f.1, value)
  return ofEntries entries

/-- A definition from the text of a document. -/
def parse? (text : String) : Option Definition :=
  (Json.parse? text).bind ofJson?

/-- The compact text of a definition, entries in their order. -/
def text (d : Definition) : String :=
  (Json.obj (d.entries.map fun e => (e.1, e.2.toJson))).text .asWritten

end Definition

/-! ## Service keys -/

/-- The key of the constraints. -/
def constraintsName : String := "__constraints__"

/-- The key of the triggers. -/
def triggersName : String := "__triggers__"

/-- The key of the plain indexes. -/
def indexesName : String := "__indexes__"

/-- The key of the unique indexes. -/
def uniqueIndexesName : String := "__uniqueIndexes__"

/-- The names that are not columns. -/
def isReservedName (name : String) : Bool :=
  [constraintsName, triggersName, indexesName, uniqueIndexesName].contains name

/-! ## From a definition to a draft -/

namespace Definition

/-- The texts of a service value that may not nest. -/
def texts (key : String) : Declaration → Except ModelError (List String)
  | .scalar text => .ok [text]
  | .list items => .ok items
  | .nested _ => .error (.invalidServiceValue key "expected a string or a list of strings")

/-- The indexes of a service value. -/
def indexItems (key : String) : Declaration → Except ModelError (List (List String))
  | .scalar text => .ok [[text]]
  | .list items => .ok [items]
  | .nested [] => .error (.invalidServiceValue key "empty index list")
  | .nested lists => .ok lists

/-- The type of a column. -/
def columnType (name : String) : Declaration → Except ModelError SqlType
  | .scalar text =>
    match SqlType.parse text with
    | .ok t => .ok t
    | .error unknown => .error (.unknownType name unknown.text)
  | value => .error (.unknownType name value.shown)

/-- Adds one entry to a draft. -/
def addTo (d : Draft) (name : String) (value : Declaration) : Except ModelError Draft :=
  if name = constraintsName then
    (texts name value).map fun ts => { d with constraints := d.constraints ++ ts }
  else if name = triggersName then
    (texts name value).map fun ts => { d with triggers := d.triggers ++ ts }
  else if name = indexesName then
    (indexItems name value).map fun ls => { d with indexes := d.indexes ++ ls }
  else if name = uniqueIndexesName then
    (indexItems name value).map fun ls => { d with uniqueIndexes := d.uniqueIndexes ++ ls }
  else (columnType name value).map fun t => d.column name t

/-- Adds entries to a draft; the first faulty one is the answer. -/
def draftFrom (d : Draft) : List (String × Declaration) → Except ModelError Draft
  | [] => .ok d
  | (name, value) :: rest =>
    match addTo d name value with
    | .error e => .error e
    | .ok d' => draftFrom d' rest

/-- The draft that a definition writes. -/
def draft (d : Definition) : Except ModelError Draft :=
  draftFrom .empty d.entries

/-- The model that a definition writes. -/
def define (d : Definition) (options : ModelExtras) : Except ModelError Model :=
  match d.draft with
  | .error e => .error e
  | .ok draft => draft.toModel options

end Definition

end AccountHistory
