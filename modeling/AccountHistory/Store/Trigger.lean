import AccountHistory.Store.Reference

/-!
# Promises and triggers

A row that comes or changes must keep the promises of its table: values that must be there,
conditions, unique indexes, in this order. Then what the change sets off takes place: the references
to the row are followed, and the triggers of its table act.

* `RowChange` is a change as triggers see it;
* `stirFault?` is what stands in the way of anything that a change may set off. It is asked before a
  statement touches a row, whether there is a row to touch or not.
-/

namespace AccountHistory.Store

open Sql

/-- The terms on which a statement runs. -/
structure Terms where
  /-- the moment, in milliseconds since 1970 -/
  clock : Int
  /-- references are checked and followed -/
  checked : Bool
  /-- rows that break a rule are passed over, where the rule says so -/
  lenient : Bool
  deriving DecidableEq, Repr

/-- The terms on which no row is passed over. -/
def Terms.strict (terms : Terms) : Terms :=
  { terms with lenient := false }

/-- The terms on which triggers act behind an event: behind a removal rows are passed over again. -/
def Terms.behind (terms : Terms) (event : Event) : Terms :=
  { terms with lenient := terms.lenient || event == .delete }

/-! ## Promises -/

namespace Database

/-- Another row covered by the index agrees with `r` on its columns. -/
def clashes (clock : Int) (t : Table) (i : Index) (r : Row) : Bool :=
  let covered (s : Row) : Bool :=
    match i.predicate with
    | none => true
    | some e => e.holds (t.scope clock s)
  let key := t.valuesAt r i.columns
  i.unique && covered r && !key.contains .null
    && t.rows.any fun s =>
      s.id != r.id && covered s
        && (key.zip (t.valuesAt s i.columns)).all fun (a, b) => a.same b

/-- A row, with the identifier `r.id`, keeps the promises of its table. -/
def admits (db : Database) (clock : Int) (t : Table) (r : Row) : Except Fault Unit :=
  if t.columns.any fun c => c.notNull && c.key.isNone && t.value? r c.name == some .null then
    .error .notNull
  else if t.checks.any fun e => !e.notRefuted (t.scope clock r) then .error .check
  else if (db.indexesOf t.name).any fun i => clashes clock t i r then .error .unique
  else .ok ()

/-- A row is passed over: nothing else is wrong with it than that it agrees with others on columns
of the table's own, and of these promises the one made last passes it over. -/
def isPassedOver (db : Database) (clock : Int) (t : Table) (r : Row) : Bool :=
  let isBroken (i : Index) : Bool := clashes clock t i r
  match db.admits clock t r with
  | .error .unique =>
    (t.row? r.id).isNone
      && !(db.indexes.filter fun i => Text.sameFold i.table t.name).any isBroken
      && ((ownIndexes t).reverse.find? isBroken).any fun i => t.isLenientOn i.columns
  | _ => false

end Database

/-! ## What triggers see -/

/-- A change of a row, as the triggers of its table see it. -/
structure RowChange where
  /-- what happened -/
  event : Event
  /-- the table, for its name and columns -/
  table : Table
  /-- the row before the change -/
  old : Option Row
  /-- the row after the change -/
  new : Option Row

/-- The name of the row that a change leaves. -/
def newName : String := "new"

/-- The name of the row that a change finds. -/
def oldName : String := "old"

/-- The columns that a trigger may use: those of the watched table in the row before and after the
change, and those of the table at hand, if there is one. -/
def triggerColumns (event : Event) (watched : Table) (current : Option Table) : Columns :=
  fun row name =>
    (current.any fun t => t.known row name) ||
      match row with
      | .current => false
      | .named n =>
        ((Text.sameFold n newName && event != .delete)
          || (Text.sameFold n oldName && event != .insert))
          && (watched.hasColumn name || watched.isIdName name)

/-- The scope of an expression in a trigger. -/
def RowChange.scope (change : RowChange) (clock : Int) (current : Option (Table × Row)) : Scope :=
  ⟨fun row name =>
    (current.bind fun (t, r) => (t.scope clock r).column? row name).or
      (match row with
      | .current => none
      | .named n =>
        (if Text.sameFold n newName then change.new
          else if Text.sameFold n oldName then change.old
          else none).bind fun r => change.table.changedOperand? r name), clock⟩

/-- The trigger acts on the change. -/
def RowChange.sets (change : RowChange) (clock : Int) (g : Trigger) : Bool :=
  g.guard.all fun e => e.holds (change.scope clock none)

/-- The triggers that watch a table for an event: the latest comes first. -/
def Database.triggersOn (db : Database) (event : Event) (table : String) : List Trigger :=
  db.triggers.reverse.filter fun g => Text.sameFold g.table table && g.event == event

/-! ## What may be set off -/

/-- The refusal of an expression with a column that its surroundings do not have. -/
def unknownIn? (has : Columns) (e : Expr) : Option Refusal :=
  (e.unknown? has).map .noSuchColumn

/-- The refusal of rows that do not fit the columns they are given for. -/
def Table.rowsFault? {α : Type} (t : Table) (columns : List String) (rows : List (List α)) :
    Option Refusal :=
  ((t.unsettable? columns).map .noSuchColumn).or
    (if rows.any fun r => r.length != columns.length then some .wrongCount else none)

namespace Database

/-- What stands in the way of an action of a trigger on the table `watched`: names that are not
there. -/
def actionFault? (db : Database) (event : Event) (watched : Table) : Action → Option Refusal
  | .select es => es.findSome? (unknownIn? (triggerColumns event watched none))
  | .update table assignments condition =>
    match db.table? table with
    | none => some (.noSuchTable table)
    | some t =>
      ((t.unsettable? (assignments.map Prod.fst)).map .noSuchColumn).or
        ((assignments.map Prod.snd ++ condition.toList).findSome?
          (unknownIn? (triggerColumns event watched (some t))))
  | .insert table columns rows =>
    match db.table? table with
    | none => some (.noSuchTable table)
    | some t =>
      (t.rowsFault? (t.columnsGiven columns) rows).or
        (rows.flatten.findSome? (unknownIn? (triggerColumns event watched none)))
  | .delete table condition =>
    match db.table? table with
    | none => some (.noSuchTable table)
    | some t => condition.bind (unknownIn? (triggerColumns event watched (some t)))

/-- What stands in the way of the guard and the actions of a trigger on the table `watched`. -/
def triggerFault? (db : Database) (watched : Table) (g : Trigger) : Option Refusal :=
  (g.guard.bind (unknownIn? (triggerColumns g.event watched none))).or
    (g.actions.findSome? (db.actionFault? g.event watched))

/-- A kind of change: an event on a table. An update assigns some of the columns. -/
structure Stir where
  /-- what happens -/
  event : Event
  /-- the name of the table -/
  table : String
  /-- the columns assigned by an update -/
  assigned : List String
  deriving DecidableEq, Repr

/-- The change an action makes. -/
def Stir.ofAction? : Action → Option Stir
  | .select _ => none
  | .update table assignments _ => some ⟨.update, table, assignments.map Prod.fst⟩
  | .insert table _ _ => some ⟨.insert, table, []⟩
  | .delete table _ => some ⟨.delete, table, []⟩

/-- An update assigns one of the columns; a name of the row identifier stands for the column that
identifies rows too. -/
def Stir.assigns (s : Stir) (t : Table) (columns : List String) : Bool :=
  columns.any fun c =>
    s.assigned.any fun a => Text.sameFold a c || (t.isKeyName c && t.isIdName a)

/-- The change that a reference to the table makes when it is followed. -/
def Stir.ofReference? (s : Stir) (t child : Table) (f : ForeignKey) : Option Stir :=
  match s.event with
  | .insert => none
  | .delete =>
    match f.onDelete with
    | .refuse | .forbid => none
    | .cascade => some ⟨.delete, child.name, []⟩
    | .setNull | .setDefault => some ⟨.update, child.name, f.columns⟩
  | .update =>
    if s.assigns t (parentColumns f t) then
      match f.onUpdate with
      | .refuse | .forbid => none
      | .cascade | .setNull | .setDefault => some ⟨.update, child.name, f.columns⟩
    else none

/-- What stands in the way of checking the references that take part in a change. One row that comes
where nothing else happens breaks no reference to its table; `many` says that this is not so. -/
def referencesFault? (db : Database) (many : Bool) (t : Table) (s : Stir) : Option Refusal :=
  let own (takesPart : ForeignKey → Bool) : Option Refusal :=
    (t.foreignKeys.filter takesPart).findSome? (db.referenceFault? t.name)
  let others := (db.unidentified? t).map fun child => .keyMismatch child.name t.name
  match s.event with
  | .insert => (own fun _ => true).or (if many then others else none)
  | .delete => (own fun _ => true).or others
  | .update =>
    let isOwn := t.foreignKeys.any fun f => s.assigns t f.columns
    let isParent := (db.referencesTo t.name).any fun (_, f) => s.assigns t (parentColumns f t)
    if isOwn || isParent then
      (own fun f => Text.sameFold f.parent t.name || s.assigns t f.columns).or others
    else none

/-- What stands in the way of a change and of what it may set off, other than the changes in
`seen`. -/
def stirFault? (db : Database) (checked : Bool) :
    Nat → List Stir → Bool → Stir → Option Refusal
  | 0, _, _, _ => none
  | fuel + 1, seen, many, s =>
    match db.table? s.table with
    | none => none
    | some t =>
      if seen.contains s then none
      else
        let due := db.triggersOn s.event t.name
        let follow := (db.referencesTo t.name).filterMap fun (child, f) => s.ofReference? t child f
        let next := (if checked then follow else [])
          ++ (due.flatMap Trigger.actions).filterMap Stir.ofAction?
        ((if checked then db.referencesFault? (many || !due.isEmpty) t s else none).or
          (due.findSome? (db.triggerFault? t))).or
          (next.findSome? (db.stirFault? checked fuel (s :: seen) true))

/-- The length up to which changes set off one another. -/
def maxDepth : Nat := 1000

/-- Refuses a change that may set off what cannot be done. -/
def prepare (db : Database) (terms : Terms) (many : Bool) (s : Stir) : Except Fault Unit :=
  match db.stirFault? terms.checked maxDepth [] many s with
  | some reason => .error (.refused reason)
  | none => .ok ()

end Database

end AccountHistory.Store
