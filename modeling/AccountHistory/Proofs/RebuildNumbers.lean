import AccountHistory.Proofs.Numbering
import AccountHistory.Proofs.Rebuild

/-!
# Rebuilds and the numbers of rows

A rebuild makes the table anew and copies its rows with their numbers. The note of the last number
given follows the table that is set aside, and goes with it; the new table has a note of its own,
which the copied rows move to the greatest of their numbers. So the rows keep their numbers, and the
numbers of rows that are gone are kept in mind only up to the greatest one that is left.
-/

namespace AccountHistory

open Store Sql

/-- The model has a column of that name that generates row identifiers. -/
def Model.Numbers (m : Model) (key : String) : Prop :=
  ∃ c ∈ m.columns, c.name = key ∧ c.type.isPrimaryKey = true

/-! ## The note of the last identifier, statement by statement -/

namespace Store.Database

variable {db db' : Database} {table name n : String}

/-- Entries that are left out for other names make no difference. -/
theorem lookup_filter {entries : List (String × Int)} {p : String × Int → Bool}
    (h : ∀ s ∈ entries, s.1 = n → p s = true) : (entries.filter p).lookup n = entries.lookup n := by
  induction entries with
  | nil => rfl
  | cons s rest ih =>
    have hrest := ih fun s' hs' => h s' (.tail s hs')
    rw [List.lookup_cons]
    by_cases hs : s.1 = n
    · rw [List.filter_cons_of_pos (h s (.head rest) hs), List.lookup_cons, hs, beq_self_eq_true]
    · have hne : (n == s.1) = false := beq_false_of_ne (Ne.symm hs)
      rw [hne, ← hrest]
      by_cases hp : p s = true
      · rw [List.filter_cons_of_pos hp, List.lookup_cons, hne]
      · rw [List.filter_cons_of_neg hp]

theorem lastGiven_without (h : Text.sameFold n table = false) :
    (db.without table).lastGiven n = db.lastGiven n := by
  rw [lastGiven, lastGiven, without]
  cases db.sequence with
  | none => rfl
  | some entries =>
    refine congrArg (Option.getD · 0) (lookup_filter fun s _ hs => ?_)
    rw [hs, h]
    rfl

/-- A table that is made changes no note. -/
theorem lastGiven_createTable {columns : List ColumnDef} {rules : List TableRule}
    (h : db.createTable false name columns rules = .ok db') : db'.lastGiven n = db.lastGiven n := by
  obtain ⟨-, habsent, hnames, -⟩ := createTable_ok h
  have hnames : repeatedName? (Table.columnNames ⟨name, columns, rules, []⟩) = none := hnames
  rw [createTable] at h
  obtain ⟨-, h⟩ := of_guard h
  simp only [habsent, hnames, Option.isSome_none, Bool.false_eq_true, if_false] at h
  obtain ⟨-, h⟩ := of_guard h
  obtain ⟨-, h⟩ := of_guard h
  split at h
  · cases h
  · obtain rfl := Except.ok.inj h
    rw [lastGiven, lastGiven]
    dsimp only
    split
    · rw [Option.getD_some]
    · rfl

/-- A name that is given up has nothing noted. -/
theorem lastGiven_renameTable (hne : Text.sameFold name table = false)
    (h : db.renameTable true false table name = .ok db') : db'.lastGiven table = 0 := by
  obtain ⟨t, ht, h⟩ := exists_of_bind h
  have hname := sameFold_of_table? (table?_of_getTable ht)
  obtain ⟨-, h⟩ := of_guard h
  obtain ⟨-, h⟩ := of_guard h
  obtain ⟨-, h⟩ := of_guard h
  simp only [Bool.not_true, Bool.and_false, Bool.false_eq_true, if_false, if_true] at h
  obtain rfl := Except.ok.inj h
  have hother : name ≠ table := by
    rintro rfl
    rw [Text.sameFold_self] at hne
    cases hne
  -- an entry of the old name has the new one
  rw [lastGiven]
  cases db.sequence with
  | none => rfl
  | some entries =>
    have hnone : (entries.map fun s =>
        (if Text.sameFold s.1 t.name then name else s.1, s.2)).lookup table = none := by
      refine List.lookup_eq_none_iff.mpr (List.forall_mem_map.mpr fun s _ => ?_)
      dsimp only
      rw [bne_iff_ne]
      split
      case isTrue => exact hother.symm
      case isFalse hs =>
        rintro rfl
        rw [Text.sameFold_comm] at hs
        exact hs hname
    change ((entries.map fun s =>
        (if Text.sameFold s.1 t.name then name else s.1, s.2)).lookup table).getD 0 = 0
    rw [hnone]
    rfl

/-! ## Copying rows -/

/-- Rows that come to an empty counting table, which no trigger watches and which passes none over,
move the note to the greatest of their numbers. -/
theorem Counts.addRows_of_idle {key : String} {u : Table} {terms : Terms}
    (hchecked : terms.checked = false) (hu : db.Counts table key u) (hstrict : u.isLenient = false)
    (hempty : u.rows = []) (hidle : db.triggersOn .insert u.name = []) {columns : List String}
    {rows : List (List Value)}
    (h : addRows terms (react terms maxDepth []) table columns rows db = .ok db') :
    ∃ all, db'.Counts table key { u with rows := all } ∧
      ∀ n, db'.lastGiven u.name ≤ n ↔ db.lastGiven u.name ≤ n ∧ ∀ r ∈ all, r.id ≤ n := by
  -- the invariant: no trigger is new, and the note is at the greatest number
  have hinvariant := foldlM_keeps (I := fun db₁ : Database => ∃ all,
    db₁.Counts table key { u with rows := all } ∧ db₁.triggers = db.triggers ∧
      ∀ n, db₁.lastGiven u.name ≤ n ↔ db.lastGiven u.name ≤ n ∧ ∀ r ∈ all, r.id ≤ n)
    (fun values _ db₁ db₂ hdb₁ h => ?_) ⟨[], ?_, rfl, ?_⟩ h
  · obtain ⟨all, hcounts, -, hlast⟩ := hinvariant
    exact ⟨all, hcounts, hlast⟩
  · obtain ⟨all, hcounts, htriggers, hlast⟩ := hdb₁
    obtain ⟨t, ht, h⟩ := exists_of_bind h
    obtain rfl := Option.some.inj (hcounts.found.symm.trans (table?_of_getTable ht))
    have hpassed := passedId?_of_strict (t := { u with rows := all }) hstrict db₁ terms
      (columns.zip values)
    obtain ⟨passed, hnone, h⟩ := exists_of_bind h
    obtain rfl := Except.ok.inj (hpassed.symm.trans hnone)
    obtain ⟨⟨db₃, r⟩, hadded, h⟩ := exists_of_bind h
    obtain ⟨hcounts', hlast'⟩ := hcounts.addRow hadded
    obtain ⟨htriggers', -⟩ := rules_addRow hadded
    obtain ⟨-, -, hfree, -⟩ := of_addRow hadded
    have htriggers'' := htriggers'.trans htriggers
    have hidle' : db₃.triggersOn .insert u.name = [] := by
      rw [triggersOn, htriggers'']
      exact hidle
    have hreact : react terms maxDepth [] ⟨.insert, { u with rows := all }, none, some r⟩ db₃
        = .ok db₃ :=
      react_of_idle hchecked 999 [] hidle'
    obtain rfl := Except.ok.inj (hreact.symm.trans h)
    refine ⟨Table.putRow r all, hcounts', htriggers'', fun n => ?_⟩
    have hmem : (∀ s ∈ Table.putRow r all, s.id ≤ n) ↔ r.id ≤ n ∧ ∀ s ∈ all, s.id ≤ n := by
      simp only [(Table.perm_putRow hfree).mem_iff, List.forall_mem_cons]
    rw [hlast', Int.max_le, hlast, hmem]
    exact and_left_comm
  · rw [← hempty]
    exact hu
  · simp

end Store.Database

/-! ## Tables of models that number rows -/

theorem key_definition {c : Column} (h : c.type.isPrimaryKey = true) :
    c.definition.key = some .autoincrement := by
  rw [Column.definition]
  cases htype : c.type <;> simp_all [SqlType.isPrimaryKey]

/-- A table that a model makes counts its rows, if the model has a column for it. -/
theorem isCounting_of_model {m : Model} {key : String} {u : Table} (hm : m.Numbers key)
    (hcolumns : List.Forall₂ Column.Gives m.columns u.columns)
    (hnames : Database.repeatedName? u.columnNames = none)
    (hkeys : u.columns.countP (fun c => c.key.isSome) ≤ 1) : u.IsCounting key := by
  obtain ⟨c, hc, rfl, htype⟩ := hm
  have hkey := key_definition htype
  have hsome : c.definition.key.isSome = true := by rw [hkey]; rfl
  obtain ⟨d, hd, hgives⟩ := exists_of_forall₂_of_mem_left hcolumns hc
  obtain rfl := hgives.eq_definition hsome
  refine ⟨distinctNames_of_repeatedName? hnames, c.definition, hd, name_definition c, hkey, ?_⟩
  intro d' hd' hdkey
  exact Blueprint.eq_of_countP_le_one hkeys hd' hd hdkey hsome

/-- The statement that makes the table of such a model makes one that counts. -/
theorem counts_of_run_createTable {table key : String} {m : Model} {s s' : Session}
    {constraints : List String} {ifAbsent : Bool} (hplain : m.IsPlain table) (hm : m.Numbers key)
    (hconstraints : Model.renderAll table m.constraints = .ok constraints)
    (habsent : s.database.table? table = none)
    (h : (Statement.createTable ifAbsent table m.columns constraints).run s true = .ok s') :
    ∃ t, s'.database.Counts table key t := by
  obtain ⟨rules, hrules, -⟩ := hplain.constraints constraints hconstraints
  rw [Statement.run_of_command? (Statement.command?_createTable hplain.name hplain.columns hrules),
    Session.obey] at h
  obtain ⟨db, hdb, rfl⟩ := exists_of_map h
  rw [Database.createTable_of_absent habsent] at hdb
  obtain ⟨-, -, hnames, hkeys, sequence, rfl⟩ := Database.createTable_ok hdb
  have hfound := Database.table?_append s.database ⟨table,
    (TableParts.ofColumns (m.columns.map Column.parts) rules).columns,
    (TableParts.ofColumns (m.columns.map Column.parts) rules).rules, []⟩ sequence table
  rw [habsent, Option.none_or, if_pos (Text.sameFold_self table)] at hfound
  have hcolumns := gives_ofColumns m.columns rules
  exact ⟨_, .of_empty hfound (isCounting_of_model hm hcolumns hnames hkeys) rfl⟩

namespace Blueprint

variable {table key : String} {m : Model} {s : Session} {t u : Table} {db₁ db₂ db₃ : Database}

/-- The new rows of a rebuild have the numbers of the old ones. -/
theorem map_id_of_says {clock : Int} {rows news : List Row} (ht : t.IsCounting key)
    (hshows : ∀ r ∈ rows, t.Shows r) (hu : u.IsCounting key)
    (hcolumns : u.columnNames = m.columnNames)
    (h : List.Forall₂ (fun values => Database.Says clock u
        ((m.columnNames.filter fun c => t.columnNames.contains c).zip values))
      (rows.map fun r => (m.columnNames.filter fun c => t.columnNames.contains c).map fun n =>
        (Expr.column .current n).eval
          (({ t with name := Model.oldName table } : Table).scope clock r)) news) :
    rows.map Row.id = news.map Row.id := by
  obtain ⟨c, hc, hname, hkey, honly⟩ := hu.column
  obtain ⟨d, hd, hname', -⟩ := ht.column
  have hlive : c.name ∈ t.columnNames := by
    rw [hname, ← hname']
    exact List.mem_map_of_mem hd
  have hmodel : c.name ∈ m.columnNames := hcolumns ▸ List.mem_map_of_mem hc
  have hcopied : c.name ∈ m.columnNames.filter fun c => t.columnNames.contains c :=
    List.mem_filter.mpr ⟨hmodel, List.contains_iff_mem.mpr hlive⟩
  have hboth := (List.forall₂_and_left _ _).mpr ⟨hshows, List.forall₂_map_left_iff.mp h⟩
  refine map_eq_map_of_forall₂ hboth fun old new ⟨hshown, hsaid⟩ => ?_
  -- the number is among the values that are copied
  have hid := hsaid.id
  rw [Database.givenId?_given hu.names honly (fun n hn => ?_) hc (by rw [hkey]; rfl) hcopied,
    Option.getD_some,
    eval_column (t := { t with name := Model.oldName table }) hlive clock old] at hid
  · have hvalue : ({ t with name := Model.oldName table } : Table).value? old c.name
        = some (.int old.id) := by
      rw [hname]
      exact Table.value?_of_shows (t := t) ht hshown
    rw [hvalue, Option.getD_some, Affinity.store_integer_int] at hid
    rcases hid with hnull | hint
    · cases hnull
    · exact Value.int.inj hint
  · rw [hcolumns]
    exact List.mem_of_mem_filter hn

/-- Before rows come to a table that is made anew, nothing is noted for it. -/
theorem counts_expecting (hm : m.Numbers key) (h : Steps table m s t u db₁ db₂ db₃) :
    (db₂.expecting u).Counts table key u ∧ (db₂.expecting u).lastGiven u.name = 0 ∧
      (db₂.expecting u).triggersOn .insert u.name = [] := by
  have haside := h.aside
  obtain ⟨-, -, hnames, hkeys, -⟩ := Database.createTable_ok h.created
  have hlast : db₂.lastGiven table = 0 := by
    rw [Database.lastGiven_createTable h.created]
    exact Database.lastGiven_renameTable (sameFold_oldName table) h.renamed
  have hcounting := isCounting_of_model hm h.shape.columns hnames hkeys
  rw [Database.expecting, Database.noting, if_pos hcounting.isAutoincrement, h.shape.name]
  refine ⟨.of_empty haside.table?_self hcounting h.shape.empty, ?_, haside.idle⟩
  rw [Database.lastGiven_give_self, hlast, max_self]

/-- Behind the steps of a rebuild the rows have their numbers, and the note is at the greatest of
them. -/
theorem counts_of_steps (hchecked : s.foreignKeys = false) (hm : m.Numbers key)
    (ht : s.database.Counts table key t) (h : Steps table m s t u db₁ db₂ db₃) :
    ∃ all, (db₃.without (Model.oldName table)).Counts table key { u with rows := all } ∧
      (all.map Row.id).Perm (t.rows.map Row.id) ∧
      ∀ n, (db₃.without (Model.oldName table)).lastGiven u.name ≤ n ↔
        0 ≤ n ∧ ∀ r ∈ t.rows, r.id ≤ n := by
  have hchecked : s.terms.checked = false := hchecked
  have haside := h.aside
  obtain ⟨hcounts, hzero, hidle⟩ := counts_expecting hm h
  have hu := h.shape
  obtain ⟨rows, hrows, hcopied⟩ := h.copied
  -- the rows are copied with their numbers, and the note follows
  obtain ⟨all, hfilled, hlast⟩ :=
    hcounts.addRows_of_idle hchecked hu.strict hu.empty hidle hcopied
  obtain ⟨news, hnews, all', hall, -, hrefills⟩ :=
    refills_of_ok hchecked haside.table?_self hu.strict hu.empty haside.idle hcopied
  obtain rfl : all' = all :=
    congrArg Table.rows (Option.some.inj (hrefills.table?_self.symm.trans hfilled.found))
  have hids : (all'.map Row.id).Perm (t.rows.map Row.id) := by
    have hshows : ∀ r ∈ rows, t.Shows r := fun r hr => ht.shows r (hrows.mem_iff.mp hr)
    have hsame := map_id_of_says ht.counting hshows hcounts.counting hu.columnNames_eq hnews
    exact (hall.map Row.id).trans (hsame ▸ hrows.map Row.id)
  -- what was set aside takes its own note along
  have hne : Text.sameFold table (Model.oldName table) = false := by
    rw [Text.sameFold_comm, sameFold_oldName]
  have hkept : (db₃.without (Model.oldName table)).lastGiven u.name = db₃.lastGiven u.name := by
    rw [hu.name]
    exact Database.lastGiven_without hne
  refine ⟨all', hfilled.of_elsewhere ?_ hkept, hids, fun n => ?_⟩
  · rw [Database.table?_without, hne]
    rfl
  · have hmem : (∀ r ∈ all', r.id ≤ n) ↔ ∀ r ∈ t.rows, r.id ≤ n := by
      rw [← List.forall_mem_map (f := Row.id) (P := (· ≤ n)),
        ← List.forall_mem_map (f := Row.id) (P := (· ≤ n))]
      simp only [hids.mem_iff]
    rw [hkept, hlast, hzero, hmem]

/-! ## Rebuilds -/

/-- A rebuild leaves the database as it is, or it has run its statements. -/
theorem rebuildTable_cases (table : String) (m : Model) (s : Session) :
    ((rebuildTable table m s).1.database = s.database ∧
      ∀ count, (rebuildTable table m s).2 ≠ .ok (count + 1)) ∨
    ∃ plan s', plan ≠ [] ∧
      m.rebuildFrom table (m.columnNames.filter fun c => (s.database.columnsOf table).contains c)
        = .ok plan ∧
      runRebuild Statement.runInside table (plan ++ m.indexStatements table) (forRebuild s)
        = .ok s' ∧
      (rebuildTable table m s).1.database = s'.database := by
  rw [rebuildTable, rebuildTableBy]
  split
  · exact .inl ⟨rfl, by simp⟩
  · split
    · exact .inl ⟨rfl, by simp⟩
    · exact .inl ⟨rfl, by simp⟩
    case h_3 plan hplan hmade =>
      cases hrun : runRebuild Statement.runInside table (plan ++ m.indexStatements table)
          (forRebuild s) with
      | error e =>
        simp only [transact, hrun]
        exact .inl ⟨rfl, by simp [Except.map]⟩
      | ok s' =>
        refine .inr ⟨plan, s', hplan, hmade, hrun, ?_⟩
        simp only [transact, hrun]
        rfl

/-- **Numbers behind a rebuild.** A rebuild leaves the database as it is, or its rows have their
numbers, and the note is at the greatest of them, or at zero if there is none. -/
theorem counts_rebuildTable (hplain : m.IsPlain table) (hm : m.Numbers key)
    (ht : s.database.Counts table key t) :
    ((rebuildTable table m s).1.database = s.database ∧
      ∀ count, (rebuildTable table m s).2 ≠ .ok (count + 1)) ∨
    ∃ u, (rebuildTable table m s).1.database.Counts table key u ∧
      (u.rows.map Row.id).Perm (t.rows.map Row.id) ∧
      ∀ n, (rebuildTable table m s).1.database.lastGiven u.name ≤ n ↔
        0 ≤ n ∧ ∀ r ∈ t.rows, r.id ≤ n := by
  refine (rebuildTable_cases table m s).imp_right ?_
  rintro ⟨plan, s', hplan, hmade, hrun, hdatabase⟩
  obtain ⟨hrun, -⟩ := runRebuild_ok hrun
  obtain ⟨-, hnone⟩ | ⟨constraints, triggers, hconstraints, htriggers, rfl⟩ :=
    Model.rebuildFrom_ok hmade
  · exact absurd hnone hplan
  rw [List.append_assoc] at hrun
  have hs := isForRebuild_forRebuild s
  obtain ⟨t', u, db₁, db₂, db₃, hsteps, hrest⟩ :=
    exists_steps hplain.isRebuiltBy hs hconstraints hrun
  obtain rfl : t' = t := Option.some.inj (hsteps.found.symm.trans ht.found)
  obtain ⟨all, hcounts, hids, hlast⟩ := counts_of_steps (s := forRebuild s) rfl hm ht hsteps
  -- triggers and indexes are made afterwards, and no number is given
  obtain ⟨indexes, made, rfl⟩ :=
    runAllBy_finish hplain.isRebuiltBy (hs.withDatabase _) htriggers hrest
  rw [hdatabase]
  exact ⟨{ u with rows := all }, hcounts.of_elsewhere rfl rfl, hids, hlast⟩

end Blueprint

end AccountHistory
