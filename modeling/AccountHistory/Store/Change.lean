import AccountHistory.Store.Trigger

/-!
# Changes of rows

How rows come, change and go, and what each change of a row sets off. Before any row is touched, the
statement is looked through for what cannot be done. References are checked when it is through.

* `addRow`, `replaceRow` and `Table.rowsBut` are the steps, on one row;
* `addRows`, `changeRows` and `removeRows` take such steps one after the other, with a `Reaction` to
  each. A row that `isPassedOver` takes none;
* `react` is the reaction of the store: it follows references and lets triggers act, which take
  steps of their own with reactions to them. A trigger does not act while it is acting already.
-/

namespace AccountHistory.Store

open Sql

namespace Database

/-! ## Identifiers -/

/-- The greatest identifier that no row has. -/
def greatestFree : List Row → Int → Int
  | [], free => free
  | r :: rest, free => if r.id = free then greatestFree rest (free - 1) else free

/-- The identifier of the next row of a table: behind the last one, and behind the last one given
out if none is given twice. -/
def nextId (db : Database) (t : Table) : Except Fault Int :=
  let isSpent := t.lastId? == some Width.int64.greatest
  let next := (t.lastId?.map (· + 1)).getD 1
  if t.isAutoincrement then
    if isSpent || Width.int64.greatest ≤ db.lastGiven t.name then
      .error (.refused (.noMoreIds t.name))
    else .ok (max next (db.lastGiven t.name + 1))
  else .ok (if isSpent then greatestFree t.rows.reverse Width.int64.greatest else next)

/-- The value given for the identifier of a row, by the name of its column or by one of its own: the
last one counts. -/
def givenId? (t : Table) (given : List (String × Value)) : Option Value :=
  (given.reverse.find? fun a => t.isKeyName a.1 || t.isIdName a.1).map Prod.snd

/-- The identifier of a new row: the one given, or the next one. -/
def newId (db : Database) (t : Table) (given : List (String × Value)) : Except Fault Int :=
  match Affinity.integer.store ((givenId? t given).getD .null) with
  | .null => db.nextId t
  | .int n => .ok n
  | _ => .error (.refused .badIdentifier)

/-- The identifier of a row that gets new values: the one given, or the one it has. -/
def changedId (t : Table) (r : Row) (assignments : List (String × Value)) : Except Fault Int :=
  match (givenId? t assignments).map Affinity.integer.store with
  | none => .ok r.id
  | some (.int n) => .ok n
  | some _ => .error (.refused .badIdentifier)

/-! ## Single rows -/

/-- The values of a new row: its identifier in the identifying column, those given for their
columns, as the columns store them, and those of the columns themselves elsewhere. -/
def newValues (clock : Int) (t : Table) (id : Int) (given : List (String × Value)) : List Value :=
  t.columns.map fun c =>
    if c.key.isSome then .int id
    else
      c.affinity.store (match given.find? fun a => Text.sameFold a.1 c.name with
        | some (_, v) => v
        | none => c.fallback.eval (.bare clock))

/-- A row comes. -/
def addRow (db : Database) (clock : Int) (t : Table) (given : List (String × Value)) :
    Except Fault (Database × Row) := do
  let id ← db.newId t given
  let row : Row := ⟨id, newValues clock t id given⟩
  db.admits clock t row
  if (t.row? id).isSome then throw .unique
  let db' := db.withRows t.name (Table.putRow row t.rows)
  return (if t.isAutoincrement then db'.give t.name id else db', row)

/-- The values of a row with new values for some of its columns, as the columns store them. Of two
values for one column the last counts. -/
def changedValues (t : Table) (r : Row) (id : Int) (assignments : List (String × Value)) :
    List Value :=
  (t.columns.zip r.values).map fun (c, v) =>
    if c.key.isSome then .int id
    else
      match assignments.reverse.find? fun a => Text.sameFold a.1 c.name with
      | some (_, w) => c.affinity.store w
      | none => v

/-- A row gets new values for some of its columns. -/
def replaceRow (db : Database) (clock : Int) (t : Table) (r : Row)
    (assignments : List (String × Value)) : Except Fault (Database × Row) := do
  if let some c := t.unsettable? (assignments.map Prod.fst) then
    throw (.refused (.noSuchColumn c))
  let id ← changedId t r assignments
  let changed : Row := ⟨id, changedValues t r id assignments⟩
  let others : Table := { t with rows := t.rowsBut r.id }
  db.admits clock others changed
  if (others.row? id).isSome then throw .unique
  return (db.withRows t.name (Table.putRow changed others.rows), changed)

/-! ## Rows one after the other -/

/-- What follows a change of a row. -/
abbrev Reaction := RowChange → Database → Except Fault Database

/-- The identifier of a row that would come but is passed over. -/
def passedId? (db : Database) (terms : Terms) (t : Table) (given : List (String × Value)) :
    Except Fault (Option Int) :=
  if terms.lenient && t.isLenient then
    (db.newId t given).map fun id =>
      if db.isPassedOver terms.clock t ⟨id, newValues terms.clock t id given⟩ then some id else none
  else .ok none

/-- A row would get new values but is passed over. -/
def passesChange (db : Database) (terms : Terms) (t : Table) (r : Row)
    (assignments : List (String × Value)) : Except Fault Bool :=
  if terms.lenient && t.isLenient then
    (changedId t r assignments).map fun id =>
      db.isPassedOver terms.clock { t with rows := t.rowsBut r.id }
        ⟨id, changedValues t r id assignments⟩
  else .ok false

/-- The database in which an identifier counts as given out, if the table gives none twice. -/
def noting (db : Database) (t : Table) (id : Int) : Database :=
  if t.isAutoincrement then db.give t.name id else db

/-- Rows come. One that is passed over leaves only its identifier behind. -/
def addRows (terms : Terms) (after : Reaction) (table : String) (columns : List String)
    (rows : List (List Value)) (db : Database) : Except Fault Database :=
  rows.foldlM (fun db values => do
    let t ← db.getTable table
    match ← db.passedId? terms t (columns.zip values) with
    | some id => return db.noting t id
    | none =>
      let (db, row) ← db.addRow terms.clock t (columns.zip values)
      after ⟨.insert, t, none, some row⟩ db) db

/-- The rows that are picked get new values. Each is looked up again when its turn comes. -/
def changeRows (terms : Terms) (after : Reaction) (table : String) (pick : Table → Row → Bool)
    (assign : Table → Row → List (String × Value)) (db : Database) : Except Fault Database := do
  let t ← db.getTable table
  (t.rows.filter (pick t)).foldlM (fun db picked => do
    let t ← db.getTable table
    match t.row? picked.id with
    | none => return db
    | some r =>
      match ← db.passesChange terms t r (assign t r) with
      | true => return db
      | false =>
        let (db, changed) ← db.replaceRow terms.clock t r (assign t r)
        after ⟨.update, t, some r, some changed⟩ db) db

/-- The rows that are picked go. -/
def removeRows (after : Reaction) (table : String) (pick : Table → Row → Bool) (db : Database) :
    Except Fault Database := do
  let t ← db.getTable table
  (t.rows.filter (pick t)).foldlM (fun db picked => do
    let t ← db.getTable table
    match t.row? picked.id with
    | none => return db
    | some r => after ⟨.delete, t, some r, none⟩ (db.withRows table (t.rowsBut r.id))) db

/-! ## Reactions -/

/-- The values of the columns referred to, in a row of the parent. -/
def keyOf (parent : Table) (f : ForeignKey) (r : Row) : List Value :=
  parent.valuesAt r (parentColumns f parent)

/-- What a reference does to the rows that refer to the row `old`. No row is passed over. -/
def followReference (terms : Terms) (after : Reaction) (change : RowChange) (old : Row)
    (child : Table) (f : ForeignKey) (db : Database) : Except Fault Database :=
  let refers (t : Table) (r : Row) : Bool := refersTo t change.table f old r
  let set (values : List Value) : Except Fault Database :=
    changeRows terms.strict after child.name refers (fun _ _ => f.columns.zip values) db
  match if change.new.isNone then f.onDelete else f.onUpdate with
  | .refuse => .ok db
  | .forbid =>
    if (db.table? child.name).any fun t => t.rows.any (refers t) then
      .error (.refused (.referred change.table.name))
    else .ok db
  | .cascade =>
    match change.new with
    | none => removeRows after child.name refers db
    | some r => set (keyOf change.table f r)
  | .setNull => set (f.columns.map fun _ => .null)
  | .setDefault =>
    set (f.columns.map fun c =>
      ((child.columns.find? fun d => Text.sameFold d.name c).map fun d =>
        d.fallback.eval (.bare terms.clock)).getD .null)

/-- References to a row that goes or gets another key are followed. -/
def followReferences (terms : Terms) (after : Reaction) (change : RowChange) (db : Database) :
    Except Fault Database :=
  match change.old with
  | none => .ok db
  | some old =>
    (db.referencesTo change.table.name).foldlM (fun db (child, f) =>
      let stays := change.new.any fun r =>
        ((keyOf change.table f old).zip (keyOf change.table f r)).all fun (a, b) => a.same b
      if stays || !db.leads f change.table then .ok db
      else followReference terms after change old child f db) db

/-- What an action does. -/
def act (terms : Terms) (after : Reaction) (change : RowChange) (db : Database) :
    Action → Except Fault Database
  | .select _ => .ok db
  | .update table assignments condition =>
    let scope (t : Table) (r : Row) : Scope := change.scope terms.clock (some (t, r))
    changeRows terms after table (fun t r => condition.all fun e => e.holds (scope t r))
      (fun t r => assignments.map fun a => (a.1, a.2.eval (scope t r))) db
  | .insert table columns rows => do
    let t ← db.getTable table
    addRows terms after table (t.columnsGiven columns)
      (rows.map fun row => row.map (Expr.eval (change.scope terms.clock none))) db
  | .delete table condition =>
    removeRows after table
      (fun t r => condition.all fun e => e.holds (change.scope terms.clock (some (t, r)))) db

/-- What the store does after a change of a row: it follows references, where they are checked, and
then lets triggers act. Those in `active` are acting already and wait. Where a reference gives new
values to rows, nothing that follows passes rows over, up to the next removal. -/
def react (terms : Terms) : Nat → List String → Reaction
  | 0, _, _, _ => .error (.refused .tooDeep)
  | fuel + 1, active, change, db => do
    let db ←
      if terms.checked then followReferences terms (react terms.strict fuel active) change db
      else pure db
    let due := (db.triggersOn change.event change.table.name).filter fun g =>
      !active.contains g.name && change.sets terms.clock g
    due.foldlM (fun db g =>
      let terms := terms.behind change.event
      g.actions.foldlM (act terms (react terms fuel (g.name :: active)) change) db) db

/-! ## Statements -/

/-- The database before rows come to a table: if no identifier is given twice, there is a note of
the last one, be it zero. -/
def expecting (db : Database) (t : Table) : Database :=
  db.noting t 0

/-- The database after a statement, where references are checked only if it broke none. -/
def settled (terms : Terms) (before after : Database) : Except Fault Database :=
  if terms.checked then settle before after else .ok after

/-- Rows come; `many` says that the statement may add several. -/
def insert (db : Database) (terms : Terms) (many : Bool) (table : String) (columns : List String)
    (rows : List (List Value)) : Except Fault Database := do
  let t ← db.getTable table
  if let some reason := t.rowsFault? columns rows then throw (.refused reason)
  db.prepare terms many ⟨.insert, table, []⟩
  let after ←
    addRows terms (react terms maxDepth []) table columns rows (db.expecting t)
  settled terms db after

/-- The rows that are picked get new values for some of their columns. -/
def update (db : Database) (terms : Terms) (table : String) (pick : Table → Row → Bool)
    (assignments : List (String × Value)) : Except Fault Database := do
  let t ← db.getTable table
  let assigned := assignments.map Prod.fst
  if let some c := t.unsettable? assigned then throw (.refused (.noSuchColumn c))
  db.prepare terms true ⟨.update, table, assigned⟩
  let after ←
    changeRows terms (react terms maxDepth []) table pick (fun _ _ => assignments) db
  settled terms db after

/-- Rows go that a condition picks. -/
def delete (db : Database) (terms : Terms) (table : String) (condition : Option Expr) :
    Except Fault Database := do
  let t ← db.getTable table
  if let some reason := condition.bind (unknownIn? t.known) then throw (.refused reason)
  db.prepare terms true ⟨.delete, table, []⟩
  let after ← removeRows (react terms maxDepth []) table
    (fun t r => condition.all fun e => e.holds (t.scope terms.clock r)) db
  settled terms db after

/-- The rows of a table go in silence before the table does: only references are followed. -/
def emptied (db : Database) (terms : Terms) (t : Table) : Except Fault Database := do
  let gone : Stir := ⟨.delete, t.name, []⟩
  let follow := (db.referencesTo t.name).filterMap fun (child, f) =>
    if db.leads f t then gone.ofReference? t child f else none
  if let some reason := follow.findSome? (db.stirFault? true maxDepth [] true) then
    throw (.refused reason)
  let after ← removeRows (followReferences terms (react terms.strict maxDepth [])) t.name
    (fun _ _ => true) db
  settle db after

/-! ## Identifiers given out, by hand -/

/-- The columns under which identifiers given out are written. -/
def sequenceColumns : List String := ["name", "seq"]

/-- Adds entries to the identifiers given out: a name and a number each. -/
def insertGiven (db : Database) (columns : List String) (rows : List (List Value)) :
    Except Fault Database := do
  let entries ← rows.mapM fun row =>
    let at? (name : String) : Option Value :=
      ((columns.zip row).find? fun a => Text.sameFold a.1 name).map Prod.snd
    match at? "name", at? "seq" with
    | some (.text name), some (.int id) => .ok (name, id)
    | _, _ => .error (.refused (.internalTable sequenceTable))
  return { db with sequence := some (db.sequence.getD [] ++ entries) }

/-- Removes the entries of the identifiers given out that a condition picks. -/
def deleteGiven (db : Database) (clock : Int) (condition : Option Expr) : Except Fault Database :=
  match db.sequenceAsTable? with
  | none => .error (.refused (.noSuchTable sequenceTable))
  | some t =>
    match condition.bind (unknownIn? t.known) with
    | some reason => .error (.refused reason)
    | none =>
      let stays (r : Row) : Bool := !condition.all fun e => e.holds (t.scope clock r)
      .ok { db with
        sequence := db.sequence.map fun entries =>
          ((entries.zip t.rows).filter fun e => stays e.2).map Prod.fst }

end Database

end AccountHistory.Store
