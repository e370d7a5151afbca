import AccountHistory.Migration.Blueprint
import AccountHistory.Proofs.Arrivals
import AccountHistory.Proofs.PlainNames

/-!
# The statements of a rebuild

A rebuild sets the table aside, makes it anew, copies its rows, drops the one set aside and makes
triggers and indexes. Here is what each of these statements leaves, where references are not checked
and a renaming takes nothing along: the session after it has the same settings.

* `Model.IsRebuiltBy` says what statements do that rebuild a table, whoever obeys them: nothing is
  said of statements that fail, nor of the texts of the model beyond what they do;
* `Model.IsPlain` are the models of plain names whose texts the store reads, and
  `Model.IsPlain.isRebuiltBy` says that it rebuilds their tables.
-/

namespace AccountHistory

open Store Sql

/-! ## Models of plain names -/

/-- The names are plain ones, and the texts are among those that the store here reads as what they
are for: constraints as rules that pass no rows over, triggers as statements that make a trigger
each, and conditions of indexes as conditions. Other texts may be lawful as well, as those of triggers
`BEFORE` a change or with `RAISE`. -/
structure Model.IsPlain (m : Model) (table : String) : Prop where
  /-- the name of the table -/
  name : isPlainName table = true
  /-- the columns -/
  columns : ∀ c ∈ m.columns, isPlainName c.name = true
  /-- the columns of indexes -/
  indexed : ∀ i ∈ m.indexes ++ m.uniqueIndexes, ∀ c ∈ i.columns, isPlainName c = true
  /-- the conditions of indexes -/
  conditions : ∀ i ∈ m.indexes ++ m.uniqueIndexes, ∀ text, i.predicate = some text →
    ∃ e, Statement.conditionOf? text = some e
  /-- the constraints -/
  constraints : ∀ texts, renderAll table m.constraints = .ok texts →
    ∃ rules, Statement.rulesOf? texts = some rules ∧ ∀ rule ∈ rules, rule.isLenient = false
  /-- the triggers -/
  triggers : ∀ texts, renderAll table m.triggers = .ok texts → ∀ text ∈ texts,
    ∃ ifAbsent g, Script.ofText text = ⟨[.createTrigger ifAbsent g], false⟩

/-- The plan of a rebuild: there is none for a model of fewer than two columns. -/
theorem Model.rebuildFrom_ok {m : Model} {table : String} {copied : List String}
    {plan : List Statement} (h : m.rebuildFrom table copied = .ok plan) :
    m.columns.length < 2 ∧ plan = [] ∨
      ∃ constraints triggers, renderAll table m.constraints = .ok constraints ∧
        renderAll table m.triggers = .ok triggers ∧
        plan = [.rename table (oldName table), .createTable false table m.columns constraints,
          .copy table (oldName table) copied, .drop false (oldName table)]
          ++ triggers.map .authored := by
  rw [rebuildFrom] at h
  split at h
  case isTrue hshort => exact .inl ⟨hshort, (Except.ok.inj h).symm⟩
  case isFalse =>
    obtain ⟨made, hmade, h⟩ := exists_of_bind h
    obtain ⟨authored, hauthored, h⟩ := exists_of_bind h
    obtain ⟨constraints, hconstraints, rfl⟩ := exists_of_map hmade
    obtain ⟨triggers, htriggers, rfl⟩ := exists_of_map hauthored
    exact .inr ⟨constraints, triggers, hconstraints, htriggers, (Except.ok.inj h).symm⟩

/-! ## Tables as models say -/

/-- A column is the one that a model says, or identifies rows in its place, where a constraint says
so. -/
def Column.Gives (c : Column) (d : ColumnDef) : Prop :=
  d = c.definition ∨
    c.type.isInteger = true ∧ c.definition.key = none ∧
      ∃ key, d = { c.definition with key := some key }

@[simp] theorem name_definition (c : Column) : c.definition.name = c.name := by
  rw [Column.definition]
  split <;> rfl

/-- A column of a model without a value is missing it. -/
theorem fallback_definition (c : Column) : c.definition.fallback = .const .null := by
  rw [Column.definition]
  split <;> rfl

namespace Column.Gives

variable {c : Column} {d : ColumnDef}

theorem name_eq (h : c.Gives d) : c.name = d.name := by
  obtain rfl | ⟨-, -, _, rfl⟩ := h
  · exact (name_definition c).symm
  · exact (name_definition c).symm

theorem affinity_eq (h : c.Gives d) : c.definition.affinity = d.affinity := by
  obtain rfl | ⟨-, -, _, rfl⟩ := h
  · rfl
  · rfl

theorem fallback_eq (h : c.Gives d) : d.fallback = .const .null := by
  obtain rfl | ⟨-, -, _, rfl⟩ := h
  · exact fallback_definition c
  · exact fallback_definition c

/-- The identifier of rows is an integer. -/
theorem affinity_of_key (h : c.Gives d) (hkey : d.key.isSome = true) : d.affinity = .integer := by
  obtain rfl | ⟨htype, -, _, rfl⟩ := h
  · rw [Column.definition] at hkey ⊢
    split <;> first | rfl | simp_all
  · change c.definition.affinity = .integer
    rw [Column.definition]
    split <;> simp_all [SqlType.isInteger]

/-- A column that the model says to identify rows is as the model says. -/
theorem eq_definition (h : c.Gives d) (hkey : c.definition.key.isSome = true) :
    d = c.definition := by
  obtain rfl | ⟨-, hnone, -⟩ := h
  · rfl
  · rw [hnone] at hkey
    cases hkey

end Column.Gives

/-- The table is the one that a model says, as it is made: its columns are those of the model, it
passes no row over, and it has no rows. -/
structure Model.Shapes (m : Model) (table : String) (u : Table) : Prop where
  /-- its name -/
  name : u.name = table
  /-- its columns -/
  columns : List.Forall₂ Column.Gives m.columns u.columns
  /-- its rules -/
  strict : u.isLenient = false
  /-- its rows -/
  empty : u.rows = []

namespace Model.Shapes

variable {m : Model} {table : String} {u : Table}

theorem columnNames_eq (h : m.Shapes table u) : u.columnNames = m.columnNames :=
  (map_eq_map_of_forall₂ h.columns fun _ _ hgives => hgives.name_eq).symm

theorem affinities_eq (h : m.Shapes table u) :
    u.columns.map ColumnDef.affinity = m.columns.map fun c => c.definition.affinity :=
  (map_eq_map_of_forall₂ h.columns fun _ _ hgives => hgives.affinity_eq).symm

theorem exists_of_mem (h : m.Shapes table u) {d : ColumnDef} (hd : d ∈ u.columns) :
    ∃ c : Column, c.Gives d :=
  (exists_of_forall₂_of_mem_right h.columns hd).imp fun _ hc => hc.2

end Model.Shapes

/-- Columns are those of the model, with rules about identifiers taken into account. -/
theorem gives_ofColumns (columns : List Column) (rules : List TableRule) :
    List.Forall₂ Column.Gives columns
      (TableParts.ofColumns (columns.map Column.parts) rules).columns := by
  rw [TableParts.ofColumns, List.map_map, List.forall₂_map_right_iff, List.forall₂_same]
  intro c _
  rw [Function.comp_apply]
  split
  case isFalse => exact .inl rfl
  case isTrue hany =>
    obtain ⟨rule, -, hrule⟩ := List.any_eq_true.mp hany
    obtain ⟨-, hrule⟩ := (Bool.and_eq_true _ _).mp hrule
    -- only a rule about one column says that it identifies rows
    rw [ColumnParts.isKeyBy.eq_def] at hrule
    split at hrule
    · simp only [Bool.and_eq_true, Option.isNone_iff_eq_none] at hrule
      exact .inr ⟨hrule.1.1, hrule.1.2, .plain, rfl⟩
    · cases hrule

/-- The table that a statement makes has the shape that the model says. -/
theorem Model.shapes_ofColumns (m : Model) (table : String) {rules : List TableRule}
    (hstrict : ∀ rule ∈ rules, rule.isLenient = false) :
    m.Shapes table ⟨table, (TableParts.ofColumns (m.columns.map Column.parts) rules).columns,
      (TableParts.ofColumns (m.columns.map Column.parts) rules).rules, []⟩ where
  name := rfl
  columns := gives_ofColumns m.columns rules
  strict := by
    rw [Table.isLenient, List.any_eq_false]
    intro rule hrule
    rw [Bool.not_eq_true]
    refine hstrict rule ?_
    -- the columns of a model come without rules of their own
    rcases List.mem_append.mp hrule with hrule | hrule
    · simp [Column.parts, List.mem_flatMap] at hrule
    · exact List.mem_of_mem_filter hrule
  empty := rfl

/-! ## Statement by statement -/

namespace Statement

variable {s s' : Session} {table : String}

/-- A statement that is obeyed as a command. -/
theorem run_of_command? {st : Statement} {c : Command} (h : st.command? = some c) :
    st.run s true = s.obey true c := by
  rw [run, h]

/-- The first of statements that are all obeyed is obeyed, and so are the others after it. -/
theorem runAllBy_cons {run : Runner} {st : Statement} {rest : List Statement}
    (h : runAllBy run s (st :: rest) = .ok s') :
    ∃ s₁, run s st = .ok s₁ ∧ runAllBy run s₁ rest = .ok s' := by
  rw [runAllBy] at h
  split at h
  · cases h
  case h_2 s₁ h₁ => exact ⟨s₁, h₁, h⟩

theorem runAll_cons {st : Statement} {rest : List Statement} (h : runAll s (st :: rest) = .ok s') :
    ∃ s₁, st.run s true = .ok s₁ ∧ runAll s₁ rest = .ok s' :=
  runAllBy_cons h

theorem runAll_cons_eq (s : Session) (st : Statement) (rest : List Statement) :
    runAll s (st :: rest) = match st.run s true with
      | .error e => .error e
      | .ok s' => runAll s' rest :=
  rfl

/-- Statements in two parts are obeyed part by part. -/
theorem runAll_append {sts rest : List Statement} (h : runAll s (sts ++ rest) = .ok s') :
    ∃ s₁, runAll s sts = .ok s₁ ∧ runAll s₁ rest = .ok s' := by
  induction sts generalizing s with
  | nil => exact ⟨s, rfl, h⟩
  | cons st sts ih =>
    obtain ⟨s₁, hfirst, h⟩ := runAll_cons h
    obtain ⟨s₂, hothers, hrest⟩ := ih h
    refine ⟨s₂, ?_, hrest⟩
    rw [runAll_cons_eq, hfirst]
    exact hothers

theorem run_rename {name : String} (htable : isPlainName table = true)
    (hname : isPlainName name = true) (hchecked : s.foreignKeys = false)
    (hnarrow : s.legacyRename = true) (h : (rename table name).run s true = .ok s') :
    ∃ db, s.database.renameTable true false table name = .ok db ∧ s' = s.withDatabase db := by
  rw [run_of_command? (c := .renameTable table name) (by simp [command?, htable, hname]),
    Session.obey] at h
  simp only [hchecked, hnarrow, Bool.not_true, Bool.or_false] at h
  obtain ⟨db, hdb, rfl⟩ := exists_of_map h
  exact ⟨db, hdb, rfl⟩

theorem command?_createTable {ifAbsent : Bool} {columns : List Column} {constraints : List String}
    {rules : List TableRule} (htable : isPlainName table = true)
    (hcolumns : ∀ c ∈ columns, isPlainName c.name = true)
    (hrules : rulesOf? constraints = some rules) :
    (createTable ifAbsent table columns constraints).command?
      = some (.createTable ifAbsent table
        (TableParts.ofColumns (columns.map Column.parts) rules).columns
        (TableParts.ofColumns (columns.map Column.parts) rules).rules) := by
  have hplain : (isPlainName table && columns.all fun c => isPlainName c.name) = true := by
    rw [htable, List.all_eq_true.mpr hcolumns]
    rfl
  rw [command?, if_pos hplain, hrules]
  rfl

theorem run_createTable {columns : List Column} {constraints : List String}
    {rules : List TableRule} (htable : isPlainName table = true)
    (hcolumns : ∀ c ∈ columns, isPlainName c.name = true)
    (hrules : rulesOf? constraints = some rules)
    (h : (createTable false table columns constraints).run s true = .ok s') :
    ∃ db, s.database.createTable false table
        (TableParts.ofColumns (columns.map Column.parts) rules).columns
        (TableParts.ofColumns (columns.map Column.parts) rules).rules = .ok db ∧
      s' = s.withDatabase db := by
  rw [run_of_command? (command?_createTable htable hcolumns hrules), Session.obey] at h
  exact exists_of_map h

theorem command?_drop (ifPresent : Bool) (htable : isPlainName table = true) :
    (drop ifPresent table).command? = some (.dropTable ifPresent table) := by
  rw [command?, if_pos htable]

theorem run_drop (htable : isPlainName table = true) (hchecked : s.foreignKeys = false)
    (h : (drop false table).run s true = .ok s') :
    s' = s.withDatabase (s.database.without table) := by
  rw [run_of_command? (command?_drop false htable), Session.obey] at h
  obtain ⟨db, hdb, rfl⟩ := exists_of_map h
  rw [Database.dropTable_ok hchecked hdb]

/-- A copy of no columns fails. -/
theorem run_copy_nil {source : String} (htable : isPlainName table = true) :
    (copy table source []).run s true = .error (.refused .malformed) := by
  have hcommand : (copy table source []).command? = none := by
    rw [command?, if_neg (by simp)]
  rw [run, hcommand, script_copy_nil htable]
  rfl

/-- What is read of a table that can be read. -/
theorem select_ok {db : Database} {clock : Int} {es : List Expr} {rows : List (List Value)}
    (hfree : Database.isReserved table = false) (h : db.select clock table es = .ok rows) :
    ∃ t, db.table? table = some t ∧
      rows = t.rows.map fun r => es.map (Expr.eval (t.scope clock r)) := by
  rw [Database.select, Database.readable?_of_free hfree] at h
  split at h
  · cases h
  case h_2 t htable =>
    split at h
    · cases h
    · exact ⟨t, htable, (Except.ok.inj h).symm⟩

/-- A copy is one of some columns, and inserts the values that these have in each row of the source.
-/
theorem run_copy {source : String} {columns : List String} (htable : isPlainName table = true)
    (hsource : isPlainName source = true) (hcolumns : ∀ n ∈ columns, isPlainName n = true)
    (hfree : Database.isReserved table = false) (hfree' : Database.isReserved source = false)
    (h : (copy table source columns).run s true = .ok s') :
    columns ≠ [] ∧ ∃ t db, s.database.table? source = some t ∧
      s.database.insert s.terms true table columns
        (t.rows.map fun r => columns.map fun n =>
          (Expr.column .current n).eval (t.scope s.clock r)) = .ok db ∧
      s' = s.withDatabase db := by
  by_cases hempty : columns = []
  · subst hempty
    rw [run_copy_nil htable] at h
    cases h
  · have hplain : (isPlainName table && isPlainName source && !columns.isEmpty
        && columns.all isPlainName) = true := by
      simp only [htable, hsource, Bool.true_and, Bool.and_eq_true, Bool.not_eq_true',
        List.isEmpty_eq_false_iff, List.all_eq_true]
      exact ⟨hempty, hcolumns⟩
    -- the columns are read of each row of the source, and given for the same columns
    have hcommand : (copy table source columns).command? = some (.insertFrom table (some columns)
        source (columns.map (.column .current))) := by
      rw [command?, if_pos hplain]
    rw [run_of_command? hcommand, Session.obey] at h
    obtain ⟨rows, hrows, h⟩ := exists_of_bind h
    obtain ⟨t, ht, rfl⟩ := select_ok hfree' hrows
    obtain ⟨-, h⟩ := of_guard h
    rw [Session.addRows, Database.isSequence_of_free hfree, if_neg Bool.false_ne_true] at h
    obtain ⟨db, hdb, rfl⟩ := exists_of_map h
    have hgiven : Session.columnsGiven s.database table (some columns) = columns := by
      rw [Session.columnsGiven]
      cases s.database.table? table <;> rfl
    refine ⟨hempty, t, db, ht, ?_, rfl⟩
    rw [hgiven] at hdb
    simpa only [List.map_map, Function.comp_def] using hdb

theorem run_authored {text : String} {ifAbsent : Bool} {g : Trigger}
    (htext : Script.ofText text = ⟨[.createTrigger ifAbsent g], false⟩)
    (h : (authored text).run s true = .ok s') :
    ∃ db, s.database.createTrigger ifAbsent g = .ok db ∧ s' = s.withDatabase db := by
  have hscript : (authored text).script = ⟨[.createTrigger ifAbsent g], false⟩ := htext
  rw [run, command?, hscript] at h
  simp only [Session.runScript, Session.obeyAll, Session.obey] at h
  cases hmade : s.database.createTrigger ifAbsent g with
  | error e =>
    rw [hmade] at h
    cases h
  | ok db =>
    rw [hmade] at h
    exact ⟨db, rfl, (Except.ok.inj h).symm⟩

theorem command?_createIndex {unique : Bool} {shape : IndexShape}
    (htable : isPlainName table = true) (hcolumns : ∀ c ∈ shape.columns, isPlainName c = true)
    (hcondition : ∀ text, shape.predicate = some text → ∃ e, conditionOf? text = some e) :
    (createIndex table unique shape).command?
      = some (.createIndex true unique (shape.name table unique) table shape.columns
        (shape.predicate.bind conditionOf?)) := by
  -- the name of the index needs no check, so the names of its parts are all there is to it
  have hplain : (isPlainName table && shape.columns.all isPlainName) = true := by
    rw [htable, List.all_eq_true.mpr hcolumns]
    rfl
  rw [command?, if_pos hplain]
  cases hpredicate : shape.predicate with
  | none => rfl
  | some text =>
    obtain ⟨e, he⟩ := hcondition text hpredicate
    simp only [Option.bind_some, he, Option.map_some]

theorem run_createIndex {unique : Bool} {shape : IndexShape} (htable : isPlainName table = true)
    (hcolumns : ∀ c ∈ shape.columns, isPlainName c = true)
    (hcondition : ∀ text, shape.predicate = some text → ∃ e, conditionOf? text = some e)
    (h : (createIndex table unique shape).run s true = .ok s') :
    ∃ predicate db, s.database.createIndex s.clock true
        ⟨shape.name table unique, table, unique, shape.columns, predicate⟩ = .ok db ∧
      s' = s.withDatabase db := by
  rw [run_of_command? (command?_createIndex htable hcolumns hcondition), Session.obey] at h
  exact ⟨_, exists_of_map h⟩

end Statement

/-! ## Whoever obeys the statements -/

/-- References are not checked, and a renaming takes nothing along. -/
def Store.Session.IsForRebuild (s : Session) : Prop :=
  s.foreignKeys = false ∧ s.legacyRename = true

theorem Store.Session.IsForRebuild.withDatabase {s : Session} (hs : s.IsForRebuild)
    (db : Database) : (s.withDatabase db).IsForRebuild :=
  hs

/-- What the statements of a rebuild do where they succeed. A table is made and filled as any table
is, unless a constraint says that rows are passed over or give way to others, as
`ON CONFLICT IGNORE` and `ON CONFLICT REPLACE` do; and what the model says of triggers and indexes makes nothing else. -/
structure Model.IsRebuiltBy (m : Model) (table : String) (run : Statement.Runner) : Prop where
  /-- the table is set aside -/
  rename : ∀ {s s' : Session}, s.IsForRebuild →
    run s (.rename table (oldName table)) = .ok s' →
      ∃ db, s.database.renameTable true false table (oldName table) = .ok db ∧
        s' = s.withDatabase db
  /-- a table is made in its place, with the columns of the model and some rules -/
  create : ∀ {texts : List String}, renderAll table m.constraints = .ok texts →
    ∃ u, m.Shapes table u ∧ ∀ {s s' : Session}, s.IsForRebuild →
      run s (.createTable false table m.columns texts) = .ok s' →
        ∃ db, s.database.createTable false table u.columns u.rules = .ok db ∧
          s' = s.withDatabase db
  /-- the rows of a table, in whichever order they are read, are inserted into another one; neither
  is one of the tables that the store keeps for itself -/
  copy : ∀ {names : List String} {s s' : Session}, (∀ n ∈ names, n ∈ m.columnNames) →
    Database.isReserved table = false → Database.isReserved (oldName table) = false →
    s.IsForRebuild → run s (.copy table (oldName table) names) = .ok s' →
      names ≠ [] ∧ ∃ (t : Table) (rows : List Row) (db : Database),
        s.database.table? (oldName table) = some t ∧ rows.Perm t.rows ∧
        s.database.insert s.terms true table names
          (rows.map fun r => names.map fun n =>
            (Expr.column .current n).eval (t.scope s.clock r)) = .ok db ∧
        s' = s.withDatabase db
  /-- what was set aside is dropped -/
  drop : ∀ {s s' : Session}, s.IsForRebuild → run s (.drop false (oldName table)) = .ok s' →
    s' = s.withDatabase (s.database.without (oldName table))
  /-- triggers -/
  triggers : ∀ {texts : List String}, renderAll table m.triggers = .ok texts → ∀ text ∈ texts,
    ∀ {s s' : Session}, s.IsForRebuild → run s (.authored text) = .ok s' →
      ∃ triggers, s' = s.withDatabase { s.database with triggers }
  /-- indexes -/
  indexes : ∀ st ∈ m.indexStatements table, ∀ {s s' : Session}, s.IsForRebuild →
    run s st = .ok s' → ∃ indexes, s' = s.withDatabase { s.database with indexes }

/-- A plain model says how a table is rebuilt. -/
theorem Model.IsPlain.isRebuiltBy {m : Model} {table : String} (hm : m.IsPlain table) :
    m.IsRebuiltBy table Statement.runInside where
  rename := fun ⟨hchecked, hnarrow⟩ hrun =>
    Statement.run_rename hm.name (isPlainName_oldName hm.name) hchecked hnarrow hrun
  create := by
    intro texts htexts
    obtain ⟨rules, hrules, hstrict⟩ := hm.constraints texts htexts
    exact ⟨_, m.shapes_ofColumns table hstrict,
      fun _ hrun => Statement.run_createTable hm.name hm.columns hrules hrun⟩
  copy := by
    intro names s s' hnames hfree hfreeOld _ hrun
    have hplain : ∀ n ∈ names, isPlainName n = true := by
      intro n hn
      obtain ⟨c, hc, rfl⟩ := List.mem_map.mp (hnames n hn)
      exact hm.columns c hc
    obtain ⟨hnames, t, db, ht, hdb, hs'⟩ := Statement.run_copy hm.name
      (isPlainName_oldName hm.name) hplain hfree hfreeOld hrun
    exact ⟨hnames, t, t.rows, db, ht, .refl _, hdb, hs'⟩
  drop := fun ⟨hchecked, _⟩ hrun =>
    Statement.run_drop (isPlainName_oldName hm.name) hchecked hrun
  triggers := by
    intro texts htexts text htext s s' _ hrun
    obtain ⟨ifAbsent, g, hscript⟩ := hm.triggers texts htexts text htext
    obtain ⟨db, hdb, rfl⟩ := Statement.run_authored hscript hrun
    obtain ⟨-, rfl⟩ | ⟨-, _, -, rfl⟩ := Database.createTrigger_ok hdb
    · exact ⟨s.database.triggers, rfl⟩
    · exact ⟨_, rfl⟩
  indexes := by
    intro st hst s s' _ hrun
    -- plain and unique indexes are made alike
    have hindex : ∃ unique, ∃ i ∈ m.indexes ++ m.uniqueIndexes,
        st = .createIndex table unique i := by
      rcases List.mem_append.mp hst with hst | hst
      · obtain ⟨i, hi, rfl⟩ := List.mem_map.mp hst
        exact ⟨false, i, List.mem_append_left _ hi, rfl⟩
      · obtain ⟨i, hi, rfl⟩ := List.mem_map.mp hst
        exact ⟨true, i, List.mem_append_right _ hi, rfl⟩
    obtain ⟨unique, i, hi, rfl⟩ := hindex
    obtain ⟨predicate, db, hdb, rfl⟩ :=
      Statement.run_createIndex hm.name (hm.indexed i hi) (hm.conditions i hi) hrun
    obtain ⟨-, rfl⟩ | ⟨-, _, -, rfl⟩ := Database.createIndex_ok hdb
    · exact ⟨s.database.indexes, rfl⟩
    · exact ⟨_, rfl⟩

end AccountHistory
