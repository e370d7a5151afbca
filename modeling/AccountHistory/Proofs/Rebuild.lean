import Mathlib.Algebra.GroupWithZero.Nat
import AccountHistory.Proofs.RebuildPlan

/-!
# Rebuilds keep rows

A rebuild is a transaction: it fails and leaves the database as it was, or it leaves the table in
the shape of its model with a row for each row it had, and all other tables as they were. The table
set aside is gone before the indexes and triggers of the model are made, and no reference is broken
in the end. In either case references are checked behind a rebuild if they were before it.

This is so whoever obeys the statements, as long as each of them does what `Model.IsRebuiltBy` says:

* `Steps` are the databases between the statements, and `exists_steps` finds them;
* `Steps.reshaped` says what they come to for tables and rows;
* `rebuildTable_spec` is about rebuilds as a whole.
-/

namespace AccountHistory

open Store Sql

namespace Blueprint

/-! ## Definition -/

/-- A new row says what the old one said, in the columns that both tables have: the old value, as
the new column stores it. Where the new column is the identifier of rows, a missing value is one that
is given out. All other columns are missing a value. -/
def Keeps (t u : Table) (old new : Row) : Prop :=
  ∀ c ∈ u.columns, u.value? new c.name
    = some (Database.arrival t.columnNames (fun n => (t.value? old n).getD .null) new.id c)

/-- The table has the shape of the model and the rows it had, and all other tables are as they were.
-/
structure Reshaped (table : String) (m : Model) (before after : Database) : Prop where
  /-- the table shared a column with the model; it has the columns of the model, in their order, and
  a row for each row it had -/
  rows : ∃ t u, before.table? table = some t ∧ after.table? table = some u ∧
    (∃ n ∈ m.columnNames, n ∈ t.columnNames) ∧ u.columnNames = m.columnNames ∧
    u.columns.map ColumnDef.affinity = m.columns.map (fun c => c.definition.affinity) ∧
    (u.rows.map Row.id).Nodup ∧
    ∃ news, news.Perm u.rows ∧ List.Forall₂ (Keeps t u) t.rows news
  /-- the name under which the table was set aside was free before, and is free again -/
  aside : before.table? (Model.oldName table) = none ∧ after.table? (Model.oldName table) = none
  /-- all other tables are as they were -/
  others : ∀ name, Text.sameFold name table = false → after.table? name = before.table? name
  /-- the version is the same -/
  version : after.version = before.version

/-- What a rebuild that does not fail has done. -/
structure Rebuilt (run : Statement.Runner) (table : String) (m : Model)
    (before after : Database) : Prop extends Reshaped table m before after where
  /-- no reference is broken -/
  references : ∀ t ∈ after.tables, ∀ f ∈ t.foreignKeys, ∀ r ∈ t.rows, after.isOrphan t f r = false
  /-- the triggers and indexes of the model are made when the table has its shape, and so when the
  one set aside is gone -/
  finished : ∃ triggers, Model.renderAll table m.triggers = .ok triggers ∧
    ∃ s s' : Session, Reshaped table m before s.database ∧
      Statement.runAllBy run s (triggers.map .authored ++ m.indexStatements table) = .ok s' ∧
      s'.database = after

/-! ## Broken references -/

theorem foldl_add_eq {α : Type} (f : α → Nat) (l : List α) (n : Nat) :
    l.foldl (fun count a => count + f a) n = n + (l.map f).sum := by
  induction l generalizing n with
  | nil => rfl
  | cons a rest ih =>
    rw [List.foldl_cons, ih, List.map_cons, List.sum_cons]
    omega

/-- Where no broken reference is counted there is none. -/
theorem isOrphan_of_orphanCount {db : Database} (h : db.orphanCount = 0) :
    ∀ t ∈ db.tables, ∀ f ∈ t.foreignKeys, ∀ r ∈ t.rows, db.isOrphan t f r = false := by
  have hcount : db.orphanCount
      = (db.tables.map fun t =>
          (t.foreignKeys.map fun f => t.rows.countP (db.isOrphan t f)).sum).sum := by
    rw [Database.orphanCount]
    simp only [foldl_add_eq, Nat.zero_add]
  rw [hcount, List.sum_eq_zero_iff_forall_eq_nat] at h
  intro t ht f hf r hr
  have htable := h _ (List.mem_map_of_mem ht)
  rw [List.sum_eq_zero_iff_forall_eq_nat] at htable
  have hreference := htable _ (List.mem_map_of_mem hf)
  rw [List.countP_eq_zero] at hreference
  simpa using hreference r hr

/-! ## Setting a table aside -/

/-- A table is set aside, and an empty one has its name. -/
structure Aside (table old : String) (t u : Table) (before after : Database) : Prop where
  /-- the name under which the table is set aside was free -/
  unused : before.table? old = none
  /-- the table -/
  table?_old : after.table? old = some { t with name := old }
  /-- the new table -/
  table?_self : after.table? table = some u
  /-- all other tables are as they were -/
  others : ∀ name, Text.sameFold name table = false → Text.sameFold name old = false →
    after.table? name = before.table? name
  /-- no trigger watches the new table -/
  idle : after.triggersOn .insert table = []
  /-- the version is the same -/
  version : after.version = before.version

theorem aside_of_ok {db db₁ db₂ : Database} {table old : String} {t : Table}
    {columns : List ColumnDef} {rules : List TableRule} (ht : db.table? table = some t)
    (hne : Text.sameFold old table = false)
    (hrename : db.renameTable true false table old = .ok db₁)
    (hcreate : db₁.createTable false table columns rules = .ok db₂) :
    Aside table old t ⟨table, columns, rules, []⟩ db db₂ := by
  obtain ⟨-, hunused, -, indexes, sequence, rfl⟩ := Database.renameTable_ok hrename
  obtain ⟨-, hgone, -, -, sequence', rfl⟩ := Database.createTable_ok hcreate
  have hne' : Text.sameFold table old = false := by rw [Text.sameFold_comm, hne]
  -- behind a renaming tables keep their names but for one, and the new table comes last
  have hmade (name : String) := Database.table?_append
    { db.retitled table old with indexes, sequence } ⟨table, columns, rules, []⟩ sequence' name
  refine ⟨hunused, ?_, ?_, fun name hname hname' => ?_, ?_, rfl⟩
  · rw [hmade]
    change ((db.retitled table old).table? old).or _ = _
    rw [Database.table?_retitled ht hunused, Option.some_or]
  · rw [hmade, hgone, Option.none_or, if_pos (Text.sameFold_self table)]
  · rw [hmade, Text.sameFold_comm table, hname]
    change ((db.retitled table old).table? name).or none = _
    rw [Option.or_none, Database.table?_retitled_of_ne hname hname']
  · exact Database.triggersOn_retitled_self hne .insert

/-! ## Copying rows -/

/-- The database in which rows have come to an empty table that passes none over. -/
theorem refills_of_ok {db db' : Database} {table : String} {u : Table} {terms : Terms}
    (hchecked : terms.checked = false) (hu : db.table? table = some u)
    (hstrict : u.isLenient = false) (hempty : u.rows = [])
    (hidle : db.triggersOn .insert table = []) {names : List String} {rows : List (List Value)}
    (h : Database.addRows terms (Database.react terms Database.maxDepth []) table names rows
      (db.expecting u) = .ok db') :
    ∃ news, List.Forall₂ (fun values => Database.Says terms.clock u (names.zip values)) rows news ∧
      ∃ all, all.Perm news ∧ (all.map Row.id).Nodup ∧ Database.Refills db db' table u all := by
  have hsame (name : String) : (db.expecting u).table? name = db.table? name :=
    Database.table?_noting 0 name
  have htriggers : (db.expecting u).triggers = db.triggers := Database.triggers_noting 0
  have hversion : (db.expecting u).version = db.version := Database.version_noting 0
  have hwatch : (db.expecting u).triggersOn .insert u.name = [] := by
    rw [← hidle, Database.triggersOn, Database.triggersOn, htriggers]
    simp only [Text.sameFold_comm _ u.name, Text.sameFold_comm _ table,
      Text.sameFold_congr (Database.sameFold_of_table? hu)]
  -- an empty table has no identifiers to repeat
  have hids : (u.rows.map Row.id).Nodup := by
    rw [hempty]
    exact List.nodup_nil
  obtain ⟨news, hnews, all, hall, hnodup, hrefills⟩ :=
    Database.addRows_of_idle hchecked ((hsame table).trans hu) hwatch hstrict hids h
  rw [hempty, List.append_nil] at hall
  exact ⟨news, hnews, all, hall, hnodup, hrefills.table?_self,
    fun name hname => (hrefills.table?_of_ne name hname).trans (hsame name),
    hrefills.triggers.trans htriggers, hrefills.version.trans hversion⟩

/-- A column that is read of a row of a table says its value there. -/
theorem eval_column {t : Table} {n : String} (hn : n ∈ t.columnNames) (clock : Int) (r : Row) :
    (Expr.column .current n).eval (t.scope clock r) = (t.value? r n).getD .null := by
  obtain ⟨c, hc, rfl⟩ := List.mem_map.mp hn
  have hindex : (t.columnIndex? c.name).isSome = true := by
    rw [Table.columnIndex?, List.findIdx?_isSome, List.any_eq_true]
    exact ⟨c, hc, Text.sameFold_self _⟩
  obtain ⟨i, hi⟩ := Option.isSome_iff_exists.mp hindex
  simp [Expr.eval, Expr.operand, Table.scope, Table.answersTo, Table.operand?, Table.value?, hi]

/-- Of the columns that satisfy a condition at most one does, if they are counted so. -/
theorem eq_of_countP_le_one {α : Type} {p : α → Bool} {l : List α} (h : l.countP p ≤ 1) {a b : α}
    (ha : a ∈ l) (hb : b ∈ l) (hpa : p a = true) (hpb : p b = true) : a = b := by
  rw [List.countP_eq_length_filter] at h
  have ha' : a ∈ l.filter p := List.mem_filter.mpr ⟨ha, hpa⟩
  have hb' : b ∈ l.filter p := List.mem_filter.mpr ⟨hb, hpb⟩
  match l.filter p, h, ha', hb' with
  | [c], _, ha', hb' => rw [List.mem_singleton.mp ha', List.mem_singleton.mp hb']

/-- A row into which the common columns are copied keeps what they said. -/
theorem keeps_of_says {m : Model} {table : String} {t u : Table} {clock : Int}
    (hu : m.Shapes table u) (hnames : Database.repeatedName? u.columnNames = none)
    (hkeys : u.columns.countP (fun c => c.key.isSome) ≤ 1) {old new : Row} {value : String → Value}
    (hvalue : ∀ n ∈ t.columnNames, value n = (t.value? old n).getD .null)
    (h : Database.Says clock u ((m.columnNames.filter fun c => t.columnNames.contains c).zip
      ((m.columnNames.filter fun c => t.columnNames.contains c).map value)) new) :
    Keeps t u old new := by
  intro c hc
  have hname : c.name ∈ m.columnNames := hu.columnNames_eq ▸ List.mem_map_of_mem hc
  -- at most one column is the identifier, and it holds integers
  have hsaid := h.value?_eq (distinctNames_of_repeatedName? hnames)
    (fun c hc d hd hkc hkd => eq_of_countP_le_one hkeys hd hc hkd hkc)
    (fun c hc hkey => ?_) (fun c hc => ?_)
    (fun n hn => hu.columnNames_eq ▸ List.mem_of_mem_filter hn) hc
  · rw [hsaid, Database.arrival, Database.arrival]
    -- a column of the model is copied exactly where the table has one of its name
    by_cases hmem : c.name ∈ t.columnNames
    · have hfilter : c.name ∈ m.columnNames.filter (fun c => t.columnNames.contains c) := by
        simp [hname, hmem]
      simp only [hmem, hfilter, true_and, hvalue _ hmem]
    · have hfilter : c.name ∉ m.columnNames.filter (fun c => t.columnNames.contains c) := by
        simp [hmem]
      simp only [hmem, hfilter, false_and, if_false]
  · obtain ⟨_, hgives⟩ := hu.exists_of_mem hc
    exact hgives.affinity_of_key hkey
  · obtain ⟨_, hgives⟩ := hu.exists_of_mem hc
    exact hgives.fallback_eq

/-! ## The statements of a rebuild, one after the other -/

/-- The databases between the statements of a rebuild: one where the table is set aside, one where
it is made anew as `u`, and one where its rows are copied. -/
structure Steps (table : String) (m : Model) (s : Session) (t u : Table)
    (aside made filled : Database) : Prop where
  /-- the table -/
  found : s.database.table? table = some t
  /-- it has another name -/
  renamed : s.database.renameTable true false table (Model.oldName table) = .ok aside
  /-- the new one is what the model says -/
  shape : m.Shapes table u
  /-- it is made -/
  created : aside.createTable false table u.columns u.rules = .ok made
  /-- there is something to copy -/
  shared : (m.columnNames.filter fun c => t.columnNames.contains c) ≠ []
  /-- the rows are copied, in some order -/
  copied : ∃ rows : List Row, rows.Perm t.rows ∧
    Database.addRows s.terms (Database.react s.terms Database.maxDepth []) table
      (m.columnNames.filter fun c => t.columnNames.contains c)
      (rows.map fun r => (m.columnNames.filter fun c => t.columnNames.contains c).map fun n =>
        (Expr.column .current n).eval
          (({ t with name := Model.oldName table } : Table).scope s.terms.clock r))
      (made.expecting u) = .ok filled

section Steps

variable {table : String} {m : Model} {s s' : Session} {run : Statement.Runner}

theorem Steps.aside {t u : Table} {db₁ db₂ db₃ : Database} (h : Steps table m s t u db₁ db₂ db₃) :
    Aside table (Model.oldName table) t u s.database db₂ := by
  have hu : (⟨table, u.columns, u.rules, []⟩ : Table) = u := by
    rw [← h.shape.name, ← h.shape.empty]
  have haside := aside_of_ok h.found (sameFold_oldName table) h.renamed h.created
  rwa [hu] at haside

/-- When what was set aside is dropped, the table is reshaped. -/
theorem Steps.reshaped {t u : Table} {db₁ db₂ db₃ : Database} (hchecked : s.foreignKeys = false)
    (h : Steps table m s t u db₁ db₂ db₃) :
    Reshaped table m s.database (db₃.without (Model.oldName table)) := by
  have hterms : s.terms.checked = false := hchecked
  have haside := h.aside
  have hu := h.shape
  obtain ⟨-, -, hnames, hkeys, -⟩ := Database.createTable_ok h.created
  obtain ⟨rows, hrows, hcopied⟩ := h.copied
  obtain ⟨copies, hcopies, all, hall, hnodup, hrefills⟩ :=
    refills_of_ok hterms haside.table?_self hu.strict hu.empty haside.idle hcopied
  -- the values of the table set aside are those of the table, whatever its name is
  have hkeeps : List.Forall₂ (Keeps t { u with rows := all }) rows copies :=
    (List.forall₂_map_left_iff.mp hcopies).imp fun old new hsaid =>
      keeps_of_says hu hnames hkeys
        (fun n hn => eval_column (t := { t with name := Model.oldName table }) hn s.clock old) hsaid
  -- and the order of the rows makes no difference
  obtain ⟨news, hnews, hperm⟩ := List.perm_comp_forall₂ hrows.symm hkeeps
  have hfound (name : String) := Database.table?_without db₃ (Model.oldName table) name
  have hne : Text.sameFold table (Model.oldName table) = false := by
    rw [Text.sameFold_comm, sameFold_oldName]
  refine ⟨⟨t, { u with rows := all }, h.found, ?_, ?_, hu.columnNames_eq, hu.affinities_eq, hnodup,
    news, hperm.trans hall.symm, hnews⟩, ⟨haside.unused, ?_⟩, fun name hname => ?_, ?_⟩
  · rw [hfound, hne]
    exact hrefills.table?_self
  · obtain ⟨n, hn⟩ := List.exists_mem_of_ne_nil _ h.shared
    obtain ⟨hmem, hlive⟩ := List.mem_filter.mp hn
    exact ⟨n, hmem, List.contains_iff_mem.mp hlive⟩
  · rw [hfound, Text.sameFold_self, if_pos rfl]
  · rw [hfound]
    by_cases hold : Text.sameFold name (Model.oldName table) = true
    · rw [if_pos hold, Database.table?_congr hold, haside.unused]
    · rw [if_neg hold, hrefills.table?_of_ne name hname,
        haside.others name hname (Bool.eq_false_iff.mpr hold)]
  · exact hrefills.version.trans haside.version

/-- The statements of a rebuild up to the one that drops the table set aside take these steps. -/
theorem exists_steps (hm : m.IsRebuiltBy table run) (hs : s.IsForRebuild)
    {constraints : List String}
    (hconstraints : Model.renderAll table m.constraints = .ok constraints) {rest : List Statement}
    (h : Statement.runAllBy run s ([.rename table (Model.oldName table),
      .createTable false table m.columns constraints,
      .copy table (Model.oldName table)
        (m.columnNames.filter fun c => (s.database.columnsOf table).contains c),
      .drop false (Model.oldName table)] ++ rest) = .ok s') :
    ∃ t u db₁ db₂ db₃, Steps table m s t u db₁ db₂ db₃ ∧
      Statement.runAllBy run (s.withDatabase (db₃.without (Model.oldName table))) rest
        = .ok s' := by
  -- the table is set aside and made anew
  obtain ⟨u, hu, hcreates⟩ := hm.create hconstraints
  obtain ⟨s₁, hfirst, h⟩ := Statement.runAllBy_cons h
  obtain ⟨db₁, hrename, rfl⟩ := hm.rename hs hfirst
  obtain ⟨s₂, hsecond, h⟩ := Statement.runAllBy_cons h
  obtain ⟨db₂, hcreate, rfl⟩ := hcreates (hs.withDatabase _) hsecond
  obtain ⟨hfreeOld, -, ⟨t, ht⟩, -⟩ := Database.renameTable_ok hrename
  obtain ⟨hfree, -⟩ := Database.createTable_ok hcreate
  have haside := aside_of_ok ht (sameFold_oldName table) hrename hcreate
  have hlive : s.database.columnsOf table = t.columnNames := by
    rw [Database.columnsOf, Database.readable?_of_free hfree, ht]
  rw [hlive] at h
  -- its rows are copied
  obtain ⟨s₃, hthird, h⟩ := Statement.runAllBy_cons h
  obtain ⟨hshared, t', rows, db₃, ht', hrows, hinsert, rfl⟩ :=
    hm.copy (fun n hn => List.mem_of_mem_filter hn) hfree hfreeOld
      (hs.withDatabase _) hthird
  obtain rfl : t' = { t with name := Model.oldName table } :=
    Option.some.inj (ht'.symm.trans haside.table?_old)
  have hterms : s.terms.checked = false := hs.1
  obtain ⟨u', hu', hadd⟩ := Database.insert_ok hterms hinsert
  obtain rfl : u' = u := by
    rw [Option.some.inj (hu'.symm.trans haside.table?_self), ← hu.name, ← hu.empty]
  -- and what was set aside is dropped
  obtain ⟨s₄, hfourth, h⟩ := Statement.runAllBy_cons h
  obtain rfl := hm.drop (hs.withDatabase db₃) hfourth
  exact ⟨t, u', db₁, db₂, db₃, ⟨ht, hrename, hu, hcreate, hshared, rows, hrows, hadd⟩, h⟩

/-- Statements that change triggers and indexes alone do so together. -/
theorem runAllBy_adorn {l : List Statement} (hl : ∀ st ∈ l, ∀ s s' : Session, s.IsForRebuild →
      run s st = .ok s' →
        ∃ indexes triggers, s' = s.withDatabase { s.database with indexes, triggers })
    (hs : s.IsForRebuild) (h : Statement.runAllBy run s l = .ok s') :
    ∃ indexes triggers, s' = s.withDatabase { s.database with indexes, triggers } := by
  induction l generalizing s with
  | nil =>
    obtain rfl := Except.ok.inj h
    exact ⟨s.database.indexes, s.database.triggers, rfl⟩
  | cons st rest ih =>
    obtain ⟨s₁, hfirst, hrest⟩ := Statement.runAllBy_cons h
    obtain ⟨indexes, triggers, rfl⟩ := hl st (.head rest) s s₁ hs hfirst
    obtain ⟨indexes', triggers', rfl⟩ := ih (fun st' hst' => hl st' (.tail st hst'))
      (hs.withDatabase _) hrest
    exact ⟨indexes', triggers', rfl⟩

/-- The triggers and indexes of a model change triggers and indexes alone. -/
theorem runAllBy_finish (hm : m.IsRebuiltBy table run) (hs : s.IsForRebuild)
    {triggers : List String} (htriggers : Model.renderAll table m.triggers = .ok triggers)
    (h : Statement.runAllBy run s (triggers.map .authored ++ m.indexStatements table) = .ok s') :
    ∃ indexes triggers, s' = s.withDatabase { s.database with indexes, triggers } := by
  refine runAllBy_adorn (fun st hst s s' hs hrun => ?_) hs h
  rcases List.mem_append.mp hst with hst | hst
  · obtain ⟨text, htext, rfl⟩ := List.mem_map.mp hst
    obtain ⟨made, rfl⟩ := hm.triggers htriggers text htext hs hrun
    exact ⟨s.database.indexes, made, rfl⟩
  · obtain ⟨made, rfl⟩ := hm.indexes st hst hs hrun
    exact ⟨made, s.database.triggers, rfl⟩

end Steps

/-! ## Rebuilds -/

theorem Reshaped.congr {table : String} {m : Model} {before after after' : Database}
    (h : Reshaped table m before after) (htables : after'.tables = after.tables)
    (hversion : after'.version = after.version) : Reshaped table m before after' := by
  have hfound : ∀ name, after'.table? name = after.table? name := by
    intro name
    rw [Database.table?, htables, Database.table?]
  refine ⟨?_, ?_, ?_, hversion.trans h.version⟩
  · simpa only [hfound] using h.rows
  · simpa only [hfound] using h.aside
  · simpa only [hfound] using h.others

/-- What is run with all its references checked at the end has run, and no reference is broken. -/
theorem runRebuild_ok {run : Statement.Runner} {table : String} {statements : List Statement}
    {s s' : Session} (h : runRebuild run table statements s = .ok s') :
    Statement.runAllBy run s statements = .ok s' ∧ s'.database.orphanCount = 0 := by
  rw [runRebuild] at h
  split at h
  · cases h
  case h_2 s₁ hrun =>
    split at h
    · cases h
    case h_2 hcheck =>
      obtain rfl := Except.ok.inj h
      refine ⟨hrun, ?_⟩
      rw [Database.checkReferences] at hcheck
      split at hcheck
      · cases hcheck
      · exact Except.ok.inj hcheck
    · cases h

theorem isForRebuild_forRebuild (s : Session) : (forRebuild s).IsForRebuild := ⟨rfl, rfl⟩

/-- The whole of a plan rebuilds the table, while references are not checked. -/
theorem rebuilt_of_runRebuild {run : Statement.Runner} {table : String} {m : Model}
    (hm : m.IsRebuiltBy table run) {s s' : Session} {plan : List Statement} (hplan : plan ≠ [])
    (hmade : m.rebuildFrom table
      (m.columnNames.filter fun c => (s.database.columnsOf table).contains c) = .ok plan)
    (h : runRebuild run table (plan ++ m.indexStatements table) (forRebuild s) = .ok s') :
    s'.foreignKeys = false ∧ Rebuilt run table m s.database s'.database := by
  -- all statements have run, and no broken reference was counted
  obtain ⟨hrun, hcount⟩ := runRebuild_ok h
  obtain ⟨-, hnone⟩ | ⟨constraints, triggers, hconstraints, htriggers, rfl⟩ :=
    Model.rebuildFrom_ok hmade
  · exact absurd hnone hplan
  rw [List.append_assoc] at hrun
  have hs := isForRebuild_forRebuild s
  obtain ⟨t, u, db₁, db₂, db₃, hsteps, hrest⟩ := exists_steps hm hs hconstraints hrun
  have hreshaped := hsteps.reshaped hs.1
  -- what is made when the table set aside is gone changes no table
  obtain ⟨indexes, made, rfl⟩ := runAllBy_finish hm (hs.withDatabase _) htriggers hrest
  exact ⟨rfl, hreshaped.congr rfl rfl, isOrphan_of_orphanCount hcount, triggers, htriggers,
    (forRebuild s).withDatabase (db₃.without (Model.oldName table)), _, hreshaped, hrest, rfl⟩

/-- **All or nothing.** A rebuild leaves the table in the shape of its model, with its rows, and all
else as it was; or it fails and leaves the database as it was. A model of fewer than two columns is
not rebuilt. References are checked as before. All that is asked of the statements is that each of
them, where it succeeds, has done what it says. -/
theorem rebuildTable_spec {run : Statement.Runner} {table : String} {m : Model}
    (hm : m.IsRebuiltBy table run) (s : Session) :
    (rebuildTableBy run table m s).1.foreignKeys = s.foreignKeys ∧
      match (rebuildTableBy run table m s).2 with
      | .error _ => (rebuildTableBy run table m s).1.database = s.database
      | .ok 0 => m.columns.length < 2 ∧ (rebuildTableBy run table m s).1 = s
      | .ok (_ + 1) =>
        Rebuilt run table m s.database (rebuildTableBy run table m s).1.database := by
  rw [rebuildTableBy]
  split
  · exact ⟨rfl, rfl⟩
  · split
    · exact ⟨rfl, rfl⟩
    case h_2 hmade =>
      refine ⟨rfl, ?_, rfl⟩
      obtain ⟨hshort, -⟩ | ⟨_, _, -, -, hplan⟩ := Model.rebuildFrom_ok hmade
      · exact hshort
      · cases hplan
    case h_3 plan hplan hmade =>
      cases hrun : runRebuild run table (plan ++ m.indexStatements table) (forRebuild s) with
      | error e =>
        simp only [transact, hrun]
        exact ⟨Bool.false_or _, rfl⟩
      | ok s' =>
        obtain ⟨hunchecked, hrebuilt⟩ := rebuilt_of_runRebuild hm hplan hmade hrun
        -- the plan has a statement, so the number of statements is not zero
        obtain ⟨first, rest, rfl⟩ := List.exists_cons_of_ne_nil hplan
        simp only [transact, hrun, afterRebuild, hunchecked, Bool.false_or, true_and]
        exact hrebuilt

/-- Prices, of which each has its own moment, and which clear a log. -/
def prices : Model :=
  ⟨[⟨"_id", .idPrimaryKey⟩, ⟨"mts", .bigint⟩, ⟨"price", .decimal⟩], [⟨"UNIQUE (mts)"⟩],
    [⟨"CREATE TRIGGER seen AFTER INSERT ON #\x7btableName\x7d BEGIN DELETE FROM log; END"⟩],
    [⟨["price"], some "WHERE price > 0"⟩], []⟩

/-- A session on a table of two moments and a log. -/
def moments : Session :=
  .start ⟨[⟨"t", [⟨"mts", .integer, false, none, .const .null⟩], [],
    [⟨1, [.int 5]⟩, ⟨4, [.int 7]⟩]⟩, ⟨"log", [⟨"x", .integer, false, none, .const .null⟩], [],
    [⟨1, [.int 1]⟩]⟩], [], [], none, 3⟩ 0

theorem isPlain_prices : prices.IsPlain "t" where
  name := by decide +kernel
  columns := by decide +kernel
  indexed := by decide +kernel
  conditions := by
    intro i hi text htext
    obtain rfl := List.mem_singleton.mp hi
    obtain rfl := Option.some.inj htext
    exact Option.isSome_iff_exists.mp (by decide +kernel)
  constraints := by
    intro texts htexts
    have hrendered : Model.renderAll "t" prices.constraints = .ok ["UNIQUE (mts)"] := by
      decide +kernel
    obtain rfl := Except.ok.inj (hrendered.symm.trans htexts)
    exact ⟨[.unique ["mts"] false], by decide +kernel, by decide +kernel⟩
  triggers := by
    intro texts htexts text htext
    have hrendered : Model.renderAll "t" prices.triggers
        = .ok ["CREATE TRIGGER seen AFTER INSERT ON t BEGIN DELETE FROM log; END"] := by
      decide +kernel
    obtain rfl := Except.ok.inj (hrendered.symm.trans htexts)
    obtain rfl := List.mem_singleton.mp htext
    exact ⟨false, ⟨"seen", "t", .insert, none, [.delete "log" none]⟩, by decide +kernel⟩

/-- The moments get prices. -/
theorem rebuildTable_spec_prices : prices.IsRebuiltBy "t" Statement.runInside ∧
    (rebuildTable "t" prices moments).2 = .ok 6 ∧
    Rebuilt Statement.runInside "t" prices moments.database
      (rebuildTable "t" prices moments).1.database := by
  have hok : (rebuildTable "t" prices moments).2 = .ok 6 := by decide +kernel
  have hspec := rebuildTable_spec isPlain_prices.isRebuiltBy moments
  rw [← rebuildTable, hok] at hspec
  exact ⟨isPlain_prices.isRebuiltBy, hok, And.right hspec⟩

/-- A model whose rows are numbered. -/
def numbered : Model := ⟨[⟨"_id", .idPrimaryKey⟩, ⟨"mts", .bigint⟩], [], [], [], []⟩

theorem isPlain_numbered : numbered.IsPlain "t" where
  name := by decide +kernel
  columns := by decide +kernel
  indexed := by decide +kernel
  conditions i hi := by cases hi
  constraints texts htexts := by
    obtain rfl := Except.ok.inj htexts
    exact ⟨[], rfl, nofun⟩
  triggers texts htexts text htext := by
    obtain rfl := Except.ok.inj htexts
    cases htext

/-- A session on a table with a row that has no number. -/
def unnumbered : Session :=
  .start ⟨[⟨"t", [⟨"_id", .integer, false, none, .const .null⟩,
    ⟨"mts", .integer, false, none, .const .null⟩], [], [⟨1, [.null, .int 5]⟩]⟩], [], [], none, 0⟩ 0

/-- A model with a statement behind the condition of its index. -/
def trailing : Model :=
  { numbered with indexes := [⟨["mts"], some "WHERE mts > 0; DELETE FROM log"⟩] }

/-- A model that passes rows over whose moment is there already. -/
def firsts : Model :=
  { numbered with constraints := [⟨"UNIQUE (mts) ON CONFLICT IGNORE"⟩] }

/-- A session on a table where a moment is there twice. -/
def twins : Session :=
  .start ⟨[⟨"t", [⟨"mts", .integer, false, none, .const .null⟩], [],
    [⟨1, [.int 5]⟩, ⟨2, [.int 5]⟩]⟩], [], [], none, 0⟩ 0

/-- A missing value does not stay where the new column numbers rows, what an index has behind its
condition reaches other tables, and a row that a constraint passes over is lost. -/
theorem rebuildTable_numbers_and_reaches :
    numbered.IsPlain "t" ∧
    unnumbered.database.select 0 "t" [.column .current "_id", .column .current "mts"]
      = .ok [[.null, .int 5]] ∧
    (rebuildTable "t" numbered unnumbered).2 = .ok 4 ∧
    (rebuildTable "t" numbered unnumbered).1.database.select 0 "t"
        [.column .current "_id", .column .current "mts"] = .ok [[.int 1, .int 5]] ∧
    moments.database.select 0 "log" [.column .current "x"] = .ok [[.int 1]] ∧
    (rebuildTable "t" trailing moments).2 = .ok 5 ∧
    (rebuildTable "t" trailing moments).1.database.select 0 "log" [.column .current "x"]
      = .ok [] ∧
    twins.database.select 0 "t" [.column .current "mts"] = .ok [[.int 5], [.int 5]] ∧
    (rebuildTable "t" firsts twins).2 = .ok 4 ∧
    (rebuildTable "t" firsts twins).1.database.select 0 "t" [.column .current "mts"]
      = .ok [[.int 5]] := by
  refine ⟨isPlain_numbered, ?_, ?_, ?_, ?_, ?_, ?_, ?_, ?_, ?_⟩ <;> decide +kernel

end Blueprint

end AccountHistory
