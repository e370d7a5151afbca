import AccountHistory.Proofs.Conditions
import AccountHistory.Proofs.Rows
import AccountHistory.Sync.Checkpoints

/-!
# The table of checkpoints

The table as the library makes it: its columns, references, conditions, unique indexes and the
trigger that notes the time of a change. The rows that the library writes are those of entries, and
an entry is found by its place: whose rows, of which collection, symbol and timeframe.
-/

namespace AccountHistory

open Store Sql

namespace Checkpoints

/-! ## Definition -/

/-- A column that identifies no rows and misses its value where none is given. -/
def column (name : String) (affinity : Affinity) (notNull : Bool) : ColumnDef :=
  ⟨name, affinity, notNull, none, .const .null⟩

/-- The columns. -/
def columns : List ColumnDef :=
  [⟨idColumn, .integer, true, some .autoincrement, .const .null⟩,
    column "user_id" .integer false, column "subUserId" .integer false,
    column "collName" .text true, column "symbol" .text true, column "timeframe" .text true]
    ++ boundColumns.map (column · .integer false)
    ++ [column madeColumn .integer false, column changedColumn .integer false]

/-- A column of the row has no value. -/
def missing (name : String) : Expr := .binary .same (.column .current name) (.const .null)

/-- A column of the row has a value. -/
def present (name : String) : Expr := .binary .different (.column .current name) (.const .null)

/-- A start does not come after its end, where both are there. -/
def envelope (start finish : String) : Expr :=
  .binary .or (.binary .or (missing start) (missing finish))
    (.binary .le (.column .current start) (.column .current finish))

/-- A reference to a user. -/
def userReference (name : String) : ForeignKey :=
  ⟨[name], "users", ["_id"], .cascade, .cascade⟩

/-- The references and conditions. -/
def rules : List TableRule :=
  [.foreignKey (userReference "user_id"), .foreignKey (userReference "subUserId"),
    .check (envelope "baseStartFrom" "baseStartTo"), .check (envelope "currStart" "currEnd")]

/-- A unique index on the rows that satisfy a condition. -/
def uniqueIndex (names : List String) (condition : Expr) : Index :=
  ⟨"_".intercalate (table :: names) ++ "_partial_unique", table, true, names, some condition⟩

/-- The unique indexes, one for each kind of owner. -/
def uniqueIndexes : List Index :=
  [uniqueIndex ["collName", "symbol", "timeframe"] (missing "user_id"),
    uniqueIndex ["user_id", "collName", "symbol", "timeframe"]
      (.binary .and (present "user_id") (missing "subUserId")),
    uniqueIndex ["user_id", "subUserId", "collName", "symbol", "timeframe"] (present "subUserId")]

/-- The moment in milliseconds, computed from days. -/
def moment : Expr :=
  .cast (.binary .mul
    (.binary .sub (.now .days) (.const (.real (.finite 4881175 (-1))))) (.const (.int 86400000)))
    .integer

/-- The trigger that notes the time of a change which does not note it itself. -/
def touch : Trigger where
  name := "syncRangeCheckpoints_updatedAt"
  table := table
  event := .update
  guard := some (.binary .same (.column (.named "NEW") changedColumn)
    (.column (.named "OLD") changedColumn))
  actions := [.update table [(changedColumn, moment)]
    (some (.binary .eq (.column .current idColumn) (.column (.named "NEW") idColumn)))]

/-- The table with some rows. -/
def tableWith (rows : List Row) : Table := ⟨table, columns, rules, rows⟩

/-- The database has the table of checkpoints with these rows, and its indexes and trigger. Whatever
else it has is left open. -/
structure HasRows (db : Database) (rows : List Row) : Prop where
  /-- the table -/
  table : db.table? table = some (tableWith rows)
  /-- the indexes of the table -/
  indexes : (db.indexes.filter fun i => Text.sameFold i.table Checkpoints.table) = uniqueIndexes
  /-- the triggers of the table -/
  triggers : (db.triggers.filter fun g => Text.sameFold g.table Checkpoints.table) = [touch]

/-! ## Columns -/

section Columns

variable (rows : List Row)

@[simp] theorem columns_tableWith : (tableWith rows).columns = columns := rfl

@[simp] theorem rows_tableWith : (tableWith rows).rows = rows := rfl

@[simp] theorem name_tableWith : (tableWith rows).name = table := rfl

/-- The table passes no row over. -/
theorem isLenient_tableWith : (tableWith rows).isLenient = false := rfl

/-- The places of the columns. -/
@[simp] theorem columnIndex?_tableWith :
    (tableWith rows).columnIndex? idColumn = some 0 ∧
    (tableWith rows).columnIndex? "user_id" = some 1 ∧
    (tableWith rows).columnIndex? "subUserId" = some 2 ∧
    (tableWith rows).columnIndex? "collName" = some 3 ∧
    (tableWith rows).columnIndex? "symbol" = some 4 ∧
    (tableWith rows).columnIndex? "timeframe" = some 5 ∧
    (tableWith rows).columnIndex? "baseStartFrom" = some 6 ∧
    (tableWith rows).columnIndex? "baseStartTo" = some 7 ∧
    (tableWith rows).columnIndex? "currStart" = some 8 ∧
    (tableWith rows).columnIndex? "currEnd" = some 9 ∧
    (tableWith rows).columnIndex? madeColumn = some 10 ∧
    (tableWith rows).columnIndex? changedColumn = some 11 := by
  have h : (tableWith rows).columnIndex? = (tableWith []).columnIndex? := rfl
  rw [h]
  decide +kernel

end Columns

/-! ## Entries -/

/-- The identifier of the user who owns a checkpoint. -/
def ownerId : CheckpointOwner → Option Int
  | .everybody => none
  | .user id _ => some id

/-- The identifier of the sub-account that owns a checkpoint. -/
def subOwnerId : CheckpointOwner → Option Int
  | .everybody => none
  | .user _ sub => sub

/-- What a checkpoint is about: its key, where no timeframe is an empty one. -/
@[ext]
structure Place where
  /-- whose rows -/
  owner : CheckpointOwner
  /-- of which collection -/
  collection : String
  /-- of which symbol -/
  symbol : String
  /-- of which timeframe -/
  timeframe : String
  deriving DecidableEq

/-- The place of a key. -/
def placeOf (key : CheckpointKey) : Place :=
  ⟨key.owner, key.collection, key.symbol, timeframeText key.timeframe⟩

/-- A checkpoint in the table. -/
structure Entry where
  /-- the identifier of its row -/
  id : Int
  /-- what it is about -/
  place : Place
  /-- its range -/
  range : SyncRange
  /-- the time of making -/
  made : Value
  /-- the time of the last change -/
  changed : Value

/-- The row of an entry. -/
def Entry.row (e : Entry) : Row :=
  ⟨e.id, [.int e.id, number (ownerId e.place.owner), number (subOwnerId e.place.owner),
    .text e.place.collection, .text e.place.symbol, .text e.place.timeframe,
    number e.range.baseFrom, number e.range.baseTo, number e.range.currFrom,
    number e.range.currTo, e.made, e.changed]⟩

/-- What is read of an entry. -/
def Entry.stored (e : Entry) : StoredRange :=
  ⟨e.id, e.place.symbol, e.place.timeframe, e.range⟩

@[simp] theorem id_row (e : Entry) : e.row.id = e.id := rfl

theorem number_eq_null {n : Option Int} : number n = .null ↔ n = none := by
  cases n <;> simp [number]

theorem number_inj {m n : Option Int} : number m = number n ↔ m = n := by
  cases m <;> cases n <;> simp [number]

/-- An owner is known by the two identifiers. -/
theorem owner_eq_iff {o o' : CheckpointOwner} :
    o = o' ↔ ownerId o = ownerId o' ∧ subOwnerId o = subOwnerId o' := by
  cases o <;> cases o' <;> simp [ownerId, subOwnerId]

/-! ## Finding entries -/

section Finding

variable (rows : List Row) (e : Entry)

/-- A text in a column equals a text if it is that one. -/
theorem isEqual_text (s : String) :
    (isEqual (tableWith rows) e.row "collName" (.text s) = decide (e.place.collection = s)) ∧
    (isEqual (tableWith rows) e.row "symbol" (.text s) = decide (e.place.symbol = s)) ∧
    (isEqual (tableWith rows) e.row "timeframe" (.text s) = decide (e.place.timeframe = s)) := by
  simp [isEqual, Table.operand?, Entry.row, columns, column]

/-- An identifier in a column equals a number if it is that one. -/
theorem isEqual_int (n : Int) :
    (isEqual (tableWith rows) e.row idColumn (.int n) = decide (e.id = n)) ∧
    (isEqual (tableWith rows) e.row "user_id" (.int n)
      = decide (ownerId e.place.owner = some n)) ∧
    (isEqual (tableWith rows) e.row "subUserId" (.int n)
      = decide (subOwnerId e.place.owner = some n)) := by
  cases h : ownerId e.place.owner <;> cases h' : subOwnerId e.place.owner <;>
    simp [isEqual, Table.operand?, Entry.row, columns, column, h, h', number]

theorem isMissing_row :
    (isMissing (tableWith rows) e.row "user_id" = decide (ownerId e.place.owner = none)) ∧
    (isMissing (tableWith rows) e.row "subUserId"
      = decide (subOwnerId e.place.owner = none)) := by
  cases h : ownerId e.place.owner <;> cases h' : subOwnerId e.place.owner <;>
    simp [isMissing, Table.value?, Entry.row, h, h', number]

/-- A row is of an owner and a collection if its entry is. -/
theorem isOf_row (owner : CheckpointOwner) (collection : String) :
    isOf owner collection (tableWith rows) e.row
      = decide (e.place.owner = owner ∧ e.place.collection = collection) := by
  obtain ⟨hcollection, -, -⟩ := isEqual_text rows e collection
  obtain ⟨hmissing, hmissingSub⟩ := isMissing_row rows e
  rw [isOf.eq_def, hcollection, Bool.eq_iff_iff, decide_eq_true_eq, owner_eq_iff]
  cases owner with
  | everybody =>
    simp only [hmissing, Bool.and_eq_true, decide_eq_true_eq]
    cases e.place.owner <;> simp [ownerId, subOwnerId]
  | user id sub =>
    obtain ⟨-, hid, -⟩ := isEqual_int rows e id
    cases sub with
    | none =>
      simp only [hid, hmissingSub, Bool.and_eq_true, decide_eq_true_eq]
      exact and_comm
    | some n =>
      obtain ⟨-, -, hsub⟩ := isEqual_int rows e n
      simp only [hid, hsub, Bool.and_eq_true, decide_eq_true_eq]
      exact and_comm

/-- A row is that of a key if its entry has the place of the key. -/
theorem isFor_row (key : CheckpointKey) :
    isFor key (tableWith rows) e.row = decide (e.place = placeOf key) := by
  obtain ⟨-, hsymbol, -⟩ := isEqual_text rows e key.symbol
  obtain ⟨-, -, htimeframe⟩ := isEqual_text rows e (timeframeText key.timeframe)
  rw [isFor, isOf_row, hsymbol, htimeframe, Bool.eq_iff_iff]
  cases e.place
  simp [placeOf, and_assoc]

theorem value?_of_columnIndex? (r : Row) {name : String} {i : Nat}
    (h : (tableWith rows).columnIndex? name = some i) :
    (tableWith rows).value? r name = some (r.values.getD i .null) := by
  rw [Table.value?, h, Option.map_some]

/-- The range in a row is that of its entry. -/
theorem rangeOf_row : rangeOf (tableWith rows) e.row = e.range := by
  obtain ⟨-, -, -, -, -, -, hb, hb', hc, hc', -, -⟩ := columnIndex?_tableWith rows
  simp only [rangeOf, value?_of_columnIndex? rows _ hb, value?_of_columnIndex? rows _ hb',
    value?_of_columnIndex? rows _ hc, value?_of_columnIndex? rows _ hc']
  rcases e with ⟨_, _, ⟨_ | _, _ | _, _ | _, _ | _⟩, _, _⟩ <;> rfl

/-- What is read of a row is its entry. -/
theorem storedRange_row : storedRange (tableWith rows) e.row = .ok e.stored := by
  obtain ⟨hid, -, -, -, hsymbol, htimeframe, -⟩ := columnIndex?_tableWith rows
  rw [storedRange, textOf, textOf, value?_of_columnIndex? rows _ hsymbol,
    value?_of_columnIndex? rows _ htimeframe, value?_of_columnIndex? rows _ hid, rangeOf_row]
  rfl

/-- Among the rows of entries, that of a key is found by its place. -/
theorem find_rows (es : List Entry) (key : CheckpointKey) :
    find (tableWith (es.map Entry.row)) key
      = .ok ((es.find? fun e => e.place = placeOf key).map Entry.stored) := by
  have hfor : (fun e : Entry => isFor key (tableWith (es.map Entry.row)) e.row)
      = fun e => decide (e.place = placeOf key) := by
    funext e
    exact isFor_row _ e key
  rw [find, rows_tableWith, List.find?_map, Function.comp_def, hfor]
  cases es.find? fun e => e.place = placeOf key with
  | none => rfl
  | some e =>
    simp only [Option.map_some, Option.mapM_some, storedRange_row]
    rfl

end Finding

/-- The table has all the columns that are asked for. -/
theorem tableOf_eq {db : Database} {rows : List Row} (h : HasRows db rows)
    (owner : CheckpointOwner) : tableOf db owner = .ok (tableWith rows) := by
  have hmissing : (tableWith rows).missing? (readColumns ++ ownerColumns owner) = none := by
    have hcolumns : (tableWith rows).missing? = (tableWith []).missing? := rfl
    rw [hcolumns]
    cases owner with
    | everybody => decide +kernel
    | user id sub =>
      change (tableWith []).missing? (readColumns ++ ["collName", "user_id", "subUserId"]) = none
      decide +kernel
  rw [tableOf, Database.getTable_of_table? h.table]
  simp only [hmissing]

/-! ## Promises -/

section Promises

variable (clock : Int) (rows : List Row) (e : Entry)

theorem operand_scope (name : String) {i : Nat} (h : (tableWith rows).columnIndex? name = some i) :
    (Expr.column .current name).operand ((tableWith rows).scope clock e.row)
      = ⟨e.row.values.getD i .null, (columns[i]?).map ColumnDef.affinity⟩ := by
  simp [Expr.operand, Table.scope, Table.answersTo, Table.operand?, h]

theorem number_same (m n : Option Int) : (number m).same (number n) = decide (m = n) := by
  cases m <;> cases n <;> simp [number]
  rfl

/-- The condition of an envelope fails only for a start behind its end. -/
theorem notRefuted_envelope {scope : Scope} {start finish : String} {m n : Option Int}
    {a b : Option Affinity}
    (hm : (Expr.column .current start).operand scope = ⟨number m, a⟩)
    (hn : (Expr.column .current finish).operand scope = ⟨number n, b⟩) :
    (envelope start finish).notRefuted scope = SyncRange.ordered m n := by
  have hconst : (Expr.const .null).operand scope = ⟨.null, none⟩ := rfl
  have hle : (Expr.binary .le (.column .current start) (.column .current finish)).eval scope
      = Expr.comparing ⟨number m, a⟩ ⟨number n, b⟩ (· != .gt) := by
    rw [Expr.eval_binary, hm, hn, Expr.apply]
  simp only [envelope, missing, Expr.notRefuted, Expr.truth?_or, Expr.truth?_same, hm, hn, hconst,
    Operand.same_null, hle]
  cases m with
  | none => rfl
  | some m =>
    cases n with
    | none => rfl
    | some n =>
      simp only [number, Expr.comparing_int, Expr.truth?_ofTruth, Expr.compare_ne_gt,
        SyncRange.ordered]
      by_cases h : m ≤ n <;> simp [h, Expr.either]

/-- The row of an entry satisfies the conditions of the table if its range is consistent. -/
theorem all_checks (h : e.range.isConsistent = true) :
    ((tableWith rows).checks.any fun c => !c.notRefuted ((tableWith rows).scope clock e.row))
      = false := by
  obtain ⟨-, -, -, -, -, -, hb, hb', hc, hc', -, -⟩ := columnIndex?_tableWith rows
  have hbase := notRefuted_envelope (operand_scope clock rows e _ hb)
    (operand_scope clock rows e _ hb')
  have hcurr := notRefuted_envelope (operand_scope clock rows e _ hc)
    (operand_scope clock rows e _ hc')
  rw [SyncRange.isConsistent, Bool.and_eq_true] at h
  have hchecks : (tableWith rows).checks
      = [envelope "baseStartFrom" "baseStartTo", envelope "currStart" "currEnd"] := rfl
  rw [hchecks]
  simp [hbase, hcurr, h.1, h.2]

/-- The row of an entry has the values it must have. -/
theorem all_present :
    (tableWith rows).columns.any (fun c => c.notNull && c.key.isNone
      && (tableWith rows).value? e.row c.name == some .null) = false := by
  obtain ⟨-, -, -, hc, hs, ht, -, -, -, -, -, -⟩ := columnIndex?_tableWith rows
  simp [columns, column, Table.value?, hc, hs, ht, Entry.row]

/-- The rows that the unique indexes cover: one for each kind of owner. -/
theorem holds_conditions :
    (missing "user_id").holds ((tableWith rows).scope clock e.row)
      = decide (ownerId e.place.owner = none) ∧
    (Expr.binary .and (present "user_id") (missing "subUserId")).holds
        ((tableWith rows).scope clock e.row)
      = decide (ownerId e.place.owner ≠ none ∧ subOwnerId e.place.owner = none) ∧
    (present "subUserId").holds ((tableWith rows).scope clock e.row)
      = decide (subOwnerId e.place.owner ≠ none) := by
  obtain ⟨-, hu, hs, -, -, -, -, -, -, -, -, -⟩ := columnIndex?_tableWith rows
  have hconst : (Expr.const .null).operand ((tableWith rows).scope clock e.row) = ⟨.null, none⟩ :=
    rfl
  simp only [missing, present, Expr.holds, Expr.truth?_same, Expr.truth?_different, Expr.truth?_and,
    operand_scope clock rows e _ hu, operand_scope clock rows e _ hs, hconst, Operand.same_null]
  have huser : e.row.values.getD 1 .null = number (ownerId e.place.owner) := rfl
  have hsub : e.row.values.getD 2 .null = number (subOwnerId e.place.owner) := rfl
  simp only [huser, hsub, number_eq_null]
  by_cases h : ownerId e.place.owner = none <;> by_cases h' : subOwnerId e.place.owner = none <;>
    simp [h, h', Expr.both]

/-- Two rows that agree where a unique index covers them have the same place. -/
theorem place_eq_of_clash {i : Index} (hi : i ∈ uniqueIndexes) {others : List Entry}
    (h : Database.clashes clock (tableWith (others.map Entry.row)) i e.row = true) :
    ∃ o ∈ others, o.id ≠ e.id ∧ o.place = e.place := by
  obtain ⟨-, hu, hs, hc, hy, ht, -⟩ := columnIndex?_tableWith (others.map Entry.row)
  simp only [uniqueIndexes, uniqueIndex, List.mem_cons, List.not_mem_nil, or_false] at hi
  simp only [Database.clashes, Bool.and_eq_true, List.any_eq_true, rows_tableWith, List.mem_map,
    exists_exists_and_eq_and, id_row, bne_iff_ne] at h
  obtain ⟨⟨⟨-, hcovered⟩, -⟩, o, ho, ⟨hne, hcovered'⟩, hagree⟩ := h
  refine ⟨o, ho, hne, ?_⟩
  obtain ⟨h₁, h₂, h₃⟩ := holds_conditions clock (others.map Entry.row) e
  obtain ⟨h₁', h₂', h₃'⟩ := holds_conditions clock (others.map Entry.row) o
  rcases hi with rfl | rfl | rfl <;>
    simp only [Table.valuesAt, Table.value?, List.map_cons, List.map_nil, hu, hs, hc, hy, ht,
      Option.map_some, Option.getD_some, Entry.row, List.getD_cons_succ, List.getD_cons_zero,
      List.zip_cons_cons, List.zip_nil_right, List.all_cons, List.all_nil, Bool.and_true,
      Bool.and_eq_true, number_same, Value.same_text, decide_eq_true_eq] at hagree
  · -- both rows are everybody's
    simp only [h₁, h₁', decide_eq_true_eq] at hcovered hcovered'
    have howner : ∀ p : CheckpointOwner, ownerId p = none → p = .everybody := by
      intro p hp
      cases p with
      | everybody => rfl
      | user => cases hp
    exact Place.ext (by rw [howner _ hcovered, howner _ hcovered']) hagree.1.symm hagree.2.1.symm
      hagree.2.2.symm
  · -- both rows are of a user as such
    simp only [h₂, h₂', decide_eq_true_eq] at hcovered hcovered'
    exact Place.ext (owner_eq_iff.mpr ⟨hagree.1.symm, hcovered'.2.trans hcovered.2.symm⟩)
      hagree.2.1.symm hagree.2.2.1.symm hagree.2.2.2.symm
  · -- both rows are of a sub-account
    exact Place.ext (owner_eq_iff.mpr ⟨hagree.1.symm, hagree.2.1.symm⟩) hagree.2.2.1.symm
      hagree.2.2.2.1.symm hagree.2.2.2.2.symm

/-- A row is admitted if its range is consistent and no other row has its place. -/
theorem admits_row {db : Database} {others : List Entry}
    (hindexes : (db.indexes.filter fun i => Text.sameFold i.table table) = uniqueIndexes)
    {t : Table} (htable : db.table? table = some t) (hrules : t.rules = rules)
    (hrange : e.range.isConsistent = true)
    (hplaces : ∀ o ∈ others, o.id ≠ e.id → o.place ≠ e.place) :
    db.admits clock (tableWith (others.map Entry.row)) e.row = .ok () := by
  have hown : Database.ownIndexes t = [] := by
    rw [Database.ownIndexes, hrules]
    rfl
  have hclash : (db.indexesOf (tableWith (others.map Entry.row)).name).any
      (fun i => Database.clashes clock (tableWith (others.map Entry.row)) i e.row) = false := by
    rw [name_tableWith, Database.indexesOf, htable, Option.elim_some, hown, List.nil_append,
      hindexes]
    rw [List.any_eq_false]
    intro i hi hclash
    obtain ⟨o, ho, hne, hplace⟩ := place_eq_of_clash clock e hi hclash
    exact hplaces o ho hne hplace
  rw [Database.admits, all_present, all_checks clock _ e hrange, hclash]
  rfl

end Promises

end Checkpoints

end AccountHistory
