import AccountHistory.Store.Change

/-!
# Making and dropping tables, indexes and triggers

Tables and indexes share their names; triggers have names of their own. A statement that asks for an
object only if it is absent does nothing when there is one of that name.

Renaming a table takes its indexes, triggers and given identifiers along. References of other tables
to it follow only on request: a rebuild keeps them on the old name, which the new table takes. Such
a narrow renaming fails where the table calls itself by its name in a condition.
-/

namespace AccountHistory.Store

open Sql

namespace Database

/-- The name begins like those that the store keeps for itself. -/
def isReserved (name : String) : Bool :=
  ['s', 'q', 'l', 'i', 't', 'e', '_'].isPrefixOf (name.toList.map Text.small)

/-- A name that occurs twice in a list, up to the case of ASCII letters. -/
def repeatedName? : List String → Option String
  | [] => none
  | n :: rest => if rest.any (Text.sameFold n) then some n else repeatedName? rest

/-- What a table cannot be made or widened with: conditions and references on columns that it does
not have. -/
def ruleFault? (t : Table) : Option Refusal :=
  (t.checks.findSome? (unknownIn? t.known)).or
    ((t.missing? (t.foreignKeys.flatMap ForeignKey.columns
      ++ (ownIndexes t).flatMap Index.columns)).map .noSuchColumn)

/-- Makes a table. -/
def createTable (db : Database) (ifAbsent : Bool) (name : String) (columns : List ColumnDef)
    (rules : List TableRule) : Except Fault Database :=
  let t : Table := ⟨name, columns, rules, []⟩
  if isReserved name then .error (.refused (.reservedName name))
  else if (db.table? name).isSome then
    if ifAbsent then .ok db else .error (.refused (.nameTaken name))
  else if (db.index? name).isSome then .error (.refused (.nameTaken name))
  else
    match repeatedName? t.columnNames with
    | some c => .error (.refused (.nameTaken c))
    | none =>
      if 1 < columns.countP (fun c => c.key.isSome) + rules.countP TableRule.isPrimary then
        .error (.refused .malformed)
      else
        match ruleFault? t with
        | some reason => .error (.refused reason)
        | none =>
          .ok { db with
            tables := db.tables ++ [t]
            sequence := if t.isAutoincrement then some (db.sequence.getD []) else db.sequence }

/-- Two rows of the table agree on the columns of the index. -/
def hasClash (clock : Int) (t : Table) (i : Index) : Bool :=
  t.rows.any fun r => clashes clock t i r

/-- Makes an index. -/
def createIndex (db : Database) (clock : Int) (ifAbsent : Bool) (i : Index) :
    Except Fault Database := do
  let t ← db.getTable i.table
  if isReserved i.name then throw (.refused (.reservedName i.name))
  if (db.table? i.name).isSome then throw (.refused (.nameTaken i.name))
  if (db.index? i.name).isSome then
    if ifAbsent then return db else throw (.refused (.nameTaken i.name))
  if let some c := t.missing? i.columns then throw (.refused (.noSuchColumn c))
  if let some reason := i.predicate.bind (unknownIn? t.known) then throw (.refused reason)
  if i.predicate.any Expr.asksClock then throw (.refused .malformed)
  if hasClash clock t i then throw .unique
  return { db with indexes := db.indexes ++ [{ i with table := t.name }] }

/-- Makes a trigger. -/
def createTrigger (db : Database) (ifAbsent : Bool) (g : Trigger) : Except Fault Database := do
  let t ← db.getTable g.table
  if isReserved g.name then throw (.refused (.reservedName g.name))
  if (db.trigger? g.name).isSome then
    if ifAbsent then return db else throw (.refused (.nameTaken g.name))
  return { db with triggers := db.triggers ++ [{ g with table := t.name }] }

/-- The database without a table and all that belongs to it. -/
def without (db : Database) (table : String) : Database :=
  { db with
    tables := db.tables.filter fun t => !Text.sameFold t.name table
    indexes := db.indexes.filter fun i => !Text.sameFold i.table table
    triggers := db.triggers.filter fun g => !Text.sameFold g.table table
    sequence := db.sequence.map fun entries => entries.filter fun s => !Text.sameFold s.1 table }

/-- Drops a table. Where references are checked and a table refers to this one, its rows go first,
in silence; references that this breaks keep the table. -/
def dropTable (db : Database) (terms : Terms) (ifPresent : Bool) (name : String) :
    Except Fault Database :=
  match db.table? name with
  | none =>
    if (db.readable? name).isSome then .error (.refused (.internalTable name))
    else if ifPresent then .ok db
    else .error (.refused (.noSuchTable name))
  | some t =>
    if terms.checked && db.isReferred name then (db.emptied terms t).map (·.without name)
    else .ok (db.without name)

/-- What stands in the way of a column that is added to rows: it must have a value, but has none or
none that is written out, or it refers to something from the outset. -/
def lateFault? (checked : Bool) (c : ColumnDef) (rules : List TableRule) : Option Refusal :=
  let isBad :=
    if c.fallback = .const .null then c.notNull
    else (checked && rules.any TableRule.isForeignKey) || !c.fallback.isWritten
  if isBad then some (.needsValue c.name) else none

/-- Adds a column to a table, in the rows there are with the value it has where none is given, and
with it what is promised of it. -/
def addColumn (db : Database) (terms : Terms) (table : String) (c : ColumnDef)
    (rules : List TableRule) : Except Fault Database := do
  let t ← db.getTable table
  if t.hasColumn c.name then throw (.refused (.nameTaken c.name))
  if c.key.isSome || rules.any TableRule.isPrimary then throw (.refused (.lateKey c.name))
  if rules.any TableRule.isUnique then throw (.refused (.lateUnique c.name))
  if !t.rows.isEmpty then
    if let some reason := lateFault? terms.checked c rules then throw (.refused reason)
  let value := c.affinity.store (c.fallback.eval (.bare terms.clock))
  let widened : Table :=
    { t with
      columns := t.columns ++ [c]
      rules := t.rules ++ rules
      rows := t.rows.map fun r => ⟨r.id, r.values ++ [value]⟩ }
  if let some reason := ruleFault? widened then throw (.refused reason)
  let isRefuted (e : Expr) : Bool :=
    widened.rows.any fun r => !e.notRefuted (widened.scope terms.clock r)
  if widened.checks.any isRefuted then throw (.refused (.lateCheck c.name))
  return { db with
    tables := db.tables.map fun u => if Text.sameFold u.name table then widened else u }

/-- The reference with its parent renamed. -/
def followRename (table name : String) : TableRule → TableRule
  | .foreignKey f =>
    .foreignKey (if Text.sameFold f.parent table then { f with parent := name } else f)
  | rule => rule

/-- The action on a table that is renamed. -/
def retitleAction (table name : String) : Action → Action
  | .update t assignments condition =>
    .update (renamed t) (assignments.map fun a => (a.1, retitled a.2)) (condition.map retitled)
  | .insert t columns rows => .insert (renamed t) columns rows
  | .delete t condition => .delete (renamed t) (condition.map retitled)
  | .select es => .select es
where
  /-- the name that a name has become -/
  renamed (n : String) : String := if Text.sameFold n table then name else n
  /-- the expression that an expression has become -/
  retitled (e : Expr) : Expr := e.retitle table name

/-- The condition on a table that is renamed. -/
def retitleCheck (table name : String) : TableRule → TableRule
  | .check e => .check (e.retitle table name)
  | rule => rule

/-- A condition of the table or of one of its indexes calls the table by its name. -/
def callsItself (db : Database) (t : Table) : Bool :=
  (t.checks ++ (db.indexesOf t.name).filterMap Index.predicate).any (Expr.mentions t.name)

/-- Some trigger cannot act. -/
def brokenTrigger? (db : Database) : Option Refusal :=
  db.triggers.findSome? fun g => (db.table? g.table).bind fun t => db.triggerFault? t g

/-- Renames a table. Unless `narrow`, what calls the table by its name follows: its conditions and
the actions of triggers, of which none may be broken then. -/
def renameTable (db : Database) (narrow follow : Bool) (table name : String) :
    Except Fault Database := do
  let t ← db.getTable table
  if isReserved name then throw (.refused (.reservedName name))
  if (db.table? name).isSome || (db.index? name).isSome then throw (.refused (.nameTaken name))
  if narrow && db.callsItself t then throw (.refused (.noSuchColumn t.name))
  let isOld (n : String) : Bool := Text.sameFold n t.name
  let renamed (n : String) : String := if isOld n then name else n
  let rulesOf (u : Table) : List TableRule :=
    let rules := if follow then u.rules.map (followRename t.name name) else u.rules
    if isOld u.name && !narrow then rules.map (retitleCheck t.name name) else rules
  let after : Database := { db with
    tables := db.tables.map fun u => { u with name := renamed u.name, rules := rulesOf u }
    indexes := db.indexes.map fun i =>
      if isOld i.table then
        { i with table := name, predicate := i.predicate.map (·.retitle t.name name) }
      else i
    triggers := db.triggers.map fun g =>
      { g with
        table := renamed g.table
        actions := if narrow then g.actions else g.actions.map (retitleAction t.name name) }
    sequence := db.sequence.map fun entries => entries.map fun s => (renamed s.1, s.2) }
  match if narrow then none else after.brokenTrigger? with
  | some reason => throw (.refused reason)
  | none => return after

/-! ## Looking into a database -/

/-- The values of expressions in each row of a table. -/
def select (db : Database) (clock : Int) (table : String) (es : List Expr) :
    Except Fault (List (List Value)) :=
  match db.readable? table with
  | none => .error (.refused (.noSuchTable table))
  | some t =>
    match es.findSome? (unknownIn? t.known) with
    | some reason => .error (.refused reason)
    | none => .ok (t.rows.map fun r => es.map (Expr.eval (t.scope clock r)))

/-- The names of indexes and triggers behind their kind, sorted. Those that match the pattern of
internal names are not listed. -/
def objects (db : Database) : List String :=
  let isListed (name : String) : Bool := !Text.isLike internalPattern name.toList
  (((db.indexes.map Index.name).filter isListed).map ("index " ++ ·)
      ++ ((db.triggers.map Trigger.name).filter isListed).map ("trigger " ++ ·))
    |>.mergeSort (· ≤ ·)

end Database

end AccountHistory.Store
