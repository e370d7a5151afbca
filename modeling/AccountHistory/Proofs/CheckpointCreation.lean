import AccountHistory.Proofs.Characters
import AccountHistory.Proofs.CheckpointTable
import AccountHistory.Proofs.Models
import AccountHistory.Proofs.RebuildPlan
import AccountHistory.Schema.Tables

/-!
# Making the table of checkpoints

The library makes the table by the statements of its model. Each stands for a command, and in a
database which has nothing of the table yet they leave it as it is described, without rows.
-/

namespace AccountHistory

open Store Sql

namespace Checkpoints

/-! ## What the model says -/

section Texts

variable {text : String}

theorem rulesOfText?_reference {column : String}
    (hcolumn : column = "user_id" ∨ column = "subUserId")
    (h : (Template.mk (Tables.reference column)).renderFor table = .ok text) :
    rulesOfText? text = some [.foreignKey (userReference column)] := by
  refine Template.rulesOfText?_renderFor "CONSTRAINT " [Tables.tableMark, "_fk_", column,
    " FOREIGN KEY (", column,
    ") REFERENCES users(_id) ON UPDATE CASCADE ON DELETE CASCADE"] rfl ?_ h
  rcases hcolumn with rfl | rfl
  · decide +kernel
  · decide +kernel

theorem rulesOfText?_envelope {name start finish : String}
    (hname : (name, start, finish) = ("base", "baseStartFrom", "baseStartTo") ∨
      (name, start, finish) = ("curr", "currStart", "currEnd"))
    (h : (Template.mk (Tables.envelope name start finish)).renderFor table = .ok text) :
    rulesOfText? text = some [.check (envelope start finish)] := by
  refine Template.rulesOfText?_renderFor "CONSTRAINT " [Tables.tableMark, "_", name,
    "_envelope CHECK (", start, " IS NULL OR ", finish, " IS NULL OR ", start, " <= ", finish,
    ")"] rfl ?_ h
  rcases hname with hname | hname
  · obtain ⟨rfl, rfl, rfl⟩ := hname
    decide +kernel
  · obtain ⟨rfl, rfl, rfl⟩ := hname
    decide +kernel

theorem script_touchTrigger
    (h : (Template.mk Tables.touchTrigger).renderFor table = .ok text) :
    Script.ofText text = ⟨[.createTrigger true touch], false⟩ := by
  refine Template.script_renderFor "CREATE TRIGGER IF NOT EXISTS " [Tables.tableMark,
    "_updatedAt AFTER UPDATE ON ", Tables.tableMark,
    " FOR EACH ROW WHEN NEW.updatedAt IS OLD.updatedAt BEGIN UPDATE ", Tables.tableMark,
    " SET updatedAt = CAST((julianday('now') - 2440587.5) * 86400000 AS INTEGER)",
    " WHERE _id = NEW._id; END"] rfl ?_ h
  decide +kernel

end Texts

theorem entry_of_mem {e : Tables.Entry} (he : e ∈ Tables.entries) (hname : e.name = table) :
    e.draft = Tables.syncRangeCheckpoints ∧ e.options = ⟨true, true⟩ := by
  revert e
  decide +kernel

/-- The constraints say the rules of the table. -/
theorem rulesOf?_constraints {texts : List String}
    (h : Model.renderAll table (Tables.syncRangeCheckpoints.constraints.map .mk) = .ok texts) :
    Statement.rulesOf? texts = some rules := by
  obtain ⟨user, others, huser, hothers, rfl⟩ := Model.renderAll_cons h
  obtain ⟨subUser, checks, hsubUser, hchecks, rfl⟩ := Model.renderAll_cons hothers
  obtain ⟨base, rest, hbase, hrest, rfl⟩ := Model.renderAll_cons hchecks
  obtain ⟨curr, nothing, hcurr, hnothing, rfl⟩ := Model.renderAll_cons hrest
  obtain rfl := Except.ok.inj hnothing
  have huser' := rulesOfText?_reference (.inl rfl) huser
  have hsubUser' := rulesOfText?_reference (.inr rfl) hsubUser
  have hbase' := rulesOfText?_envelope (.inl rfl) hbase
  have hcurr' := rulesOfText?_envelope (.inr rfl) hcurr
  simp [Statement.rulesOf?, huser', hsubUser', hbase', hcurr', rules]

/-- The columns of the model are those of the table. -/
theorem columns_declared {declared : List Column}
    (h : Draft.declare [] Tables.syncRangeCheckpoints.columns = .ok declared) :
    let made := Draft.complete ⟨true, true⟩ declared
    let parts := TableParts.ofColumns (made.map Column.parts) rules
    (made.all fun c => isPlainName c.name) = true ∧ parts.columns = columns ∧
      parts.rules = rules := by
  have hall : (Draft.declare [] Tables.syncRangeCheckpoints.columns).toOption.all (fun declared =>
      let made := Draft.complete ⟨true, true⟩ declared
      let parts := TableParts.ofColumns (made.map Column.parts) rules
      (made.all fun c => isPlainName c.name) && parts.columns == columns && parts.rules == rules)
      = true := by
    decide +kernel
  rw [h, Except.toOption, Option.all_some, Bool.and_eq_true, Bool.and_eq_true, beq_iff_eq,
    beq_iff_eq] at hall
  exact ⟨hall.1.1, hall.1.2, hall.2⟩

/-- The indexes of the model are those of the table. -/
theorem indexes_declared {declared : List Column} {shapes : List IndexShape}
    (h : Draft.declare [] Tables.syncRangeCheckpoints.columns = .ok declared)
    (hshapes : Draft.indexSpecs (Draft.complete ⟨true, true⟩ declared)
      Tables.syncRangeCheckpoints.uniqueIndexes = .ok shapes) :
    (shapes.map fun i => (Statement.createIndex table true i).command?)
      = uniqueIndexes.map fun i =>
        some (.createIndex true i.unique i.name i.table i.columns i.predicate) := by
  have hall : (Draft.declare [] Tables.syncRangeCheckpoints.columns).toOption.all (fun declared =>
      (Draft.indexSpecs (Draft.complete ⟨true, true⟩ declared)
        Tables.syncRangeCheckpoints.uniqueIndexes).toOption.all fun shapes =>
          (shapes.map fun i => (Statement.createIndex table true i).command?)
            == uniqueIndexes.map fun i =>
              some (.createIndex true i.unique i.name i.table i.columns i.predicate))
      = true := by
    decide +kernel
  rw [h, Except.toOption, Option.all_some, hshapes, Except.toOption, Option.all_some,
    beq_iff_eq] at hall
  exact hall

/-- The statements of the model, as what they stand for. -/
theorem creation_spec {m : Model} (hm : (table, m) ∈ Tables.models) {statements : List Statement}
    (h : m.creation table = .ok statements) : ∃ making indexing trigger,
      statements = making :: indexing ++ [.authored trigger] ∧
      making.command? = some (.createTable true table columns rules) ∧
      indexing.map Statement.command? = (uniqueIndexes.map fun i =>
        some (.createIndex true i.unique i.name i.table i.columns i.predicate)) ∧
      Script.ofText trigger = ⟨[.createTrigger true touch], false⟩ := by
  obtain ⟨e, he, hmade⟩ := List.mem_filterMap.mp hm
  obtain ⟨m', hsome, hpair⟩ := Option.map_eq_some_iff.mp hmade
  obtain ⟨hname, rfl⟩ := Prod.mk.inj hpair
  obtain ⟨hdraft, hoptions⟩ := entry_of_mem he hname
  have hmodel : e.draft.toModel e.options = .ok m' := of_toOption hsome
  rw [hdraft, hoptions] at hmodel
  -- the model is what the draft of the table says
  obtain ⟨⟨declared, hdeclared, hcolumns⟩, hconstraints, htriggers, hindexes, hunique, -⟩ :=
    Draft.toModel_ok hmodel
  obtain ⟨constraints, triggers, hrules, htrigger, rfl⟩ := Model.creation_ok h
  rw [hconstraints] at hrules
  rw [htriggers] at htrigger
  obtain ⟨trigger, nothing, htrigger', hnothing, rfl⟩ := Model.renderAll_cons htrigger
  obtain rfl := Except.ok.inj hnothing
  rw [hcolumns] at hunique hindexes
  obtain ⟨hplain, hcolumns', hrules'⟩ := columns_declared hdeclared
  refine ⟨_, _, trigger, rfl, ?_, ?_, script_touchTrigger htrigger'⟩
  · have htable : isPlainName table = true := by decide +kernel
    simp only [Statement.command?, hcolumns, htable, Bool.true_and, if_pos hplain,
      rulesOf?_constraints hrules, Option.map_some, hcolumns', hrules']
  · have hnone : m'.indexes = [] := (Except.ok.inj hindexes).symm
    rw [Model.indexStatements, hnone, List.map_nil, List.nil_append, List.map_map]
    exact indexes_declared hdeclared hunique

/-! ## What the statements leave -/

/-- Nothing of the table is there, and the names of its indexes and of its trigger are free. -/
structure Lacks (db : Database) : Prop where
  /-- the table -/
  table : db.table? table = none
  /-- the indexes of the table -/
  indexes : ∀ i ∈ db.indexes, Text.sameFold i.table Checkpoints.table = false
  /-- the names of its indexes -/
  names : ∀ i ∈ uniqueIndexes, db.index? i.name = none
  /-- the triggers of the table -/
  triggers : ∀ g ∈ db.triggers, Text.sameFold g.table Checkpoints.table = false
  /-- the name of its trigger -/
  trigger : db.trigger? touch.name = none

/-- Statements that make new indexes on a table make all of them, in order. -/
theorem runAll_createIndex {statements : List Statement} {indexes : List Index} {t : Table}
    {s s' : Session}
    (hread : statements.map Statement.command? = indexes.map fun i =>
      some (.createIndex true i.unique i.name i.table i.columns i.predicate))
    (hon : ∀ i ∈ indexes, i.table = t.name) (ht : s.database.table? t.name = some t)
    (hfree : ∀ i ∈ indexes, s.database.index? i.name = none)
    (hdistinct : indexes.Pairwise fun i j => Text.sameFold i.name j.name = false)
    (h : Statement.runAll s statements = .ok s') :
    s' = s.withDatabase { s.database with indexes := s.database.indexes ++ indexes } := by
  induction indexes generalizing statements s with
  | nil =>
    obtain rfl := List.map_eq_nil_iff.mp hread
    obtain rfl := Except.ok.inj h
    rw [List.append_nil]
    rfl
  | cons i rest ih =>
    obtain ⟨st, sts, rfl, hst, hsts⟩ := List.map_eq_cons_iff.mp hread
    obtain ⟨s₁, hfirst, hothers⟩ := Statement.runAll_cons h
    rw [Statement.run_of_command? hst, Session.obey] at hfirst
    obtain ⟨db, hdb, rfl⟩ := exists_of_map hfirst
    rw [List.pairwise_cons] at hdistinct
    obtain ⟨hthere, -⟩ | ⟨-, u, hu, rfl⟩ := Database.createIndex_ok hdb
    · rw [hfree i (.head rest)] at hthere
      cases hthere
    · rw [hon i (.head rest), ht] at hu
      obtain rfl := Option.some.inj hu
      -- the index is made as it is, and its name takes none of the names of the others
      have hmade : ({ i with table := t.name } : Index) = i := by
        rw [← hon i (.head rest)]
      rw [hmade] at hothers
      have hfree' : ∀ j ∈ rest, ({ s.database with
          indexes := s.database.indexes ++ [i] } : Database).index? j.name = none := by
        intro j hj
        rw [Database.index?, List.find?_append, ← Database.index?, hfree j (.tail i hj),
          Option.none_or, List.find?_singleton, hdistinct.1 j hj]
        rfl
      rw [ih (s := s.withDatabase { s.database with indexes := s.database.indexes ++ [i] }) hsts
        (fun j hj => hon j (.tail i hj)) ht hfree' hdistinct.2 hothers]
      change s.withDatabase { s.database with indexes := s.database.indexes ++ [i] ++ rest } = _
      rw [List.append_assoc, List.singleton_append]

/-- **Creation.** Where nothing of the table is there, the statements that the library has for it
make it without rows. -/
theorem hasRows_of_creation {m : Model} (hm : (table, m) ∈ Tables.models)
    {statements : List Statement} (hstatements : m.creation table = .ok statements)
    {s s' : Session} (hlacks : Lacks s.database) (h : Statement.runAll s statements = .ok s') :
    HasRows s'.database [] := by
  obtain ⟨making, indexing, trigger, rfl, hmaking, hindexing, htrigger⟩ :=
    creation_spec hm hstatements
  -- the table
  obtain ⟨s₁, hmade, h⟩ := Statement.runAll_cons h
  rw [Statement.run_of_command? hmaking, Session.obey] at hmade
  obtain ⟨db₁, hdb₁, rfl⟩ := exists_of_map hmade
  rw [Database.createTable_of_absent hlacks.table] at hdb₁
  obtain ⟨-, -, -, -, sequence, rfl⟩ := Database.createTable_ok hdb₁
  have htable : ({ s.database with
      tables := s.database.tables ++ [tableWith []], sequence } : Database).table? table
      = some (tableWith []) := by
    rw [Database.table?_append, hlacks.table, Option.none_or, name_tableWith,
      if_pos (Text.sameFold_self _)]
  -- its indexes
  obtain ⟨s₂, hindexed, h⟩ := Statement.runAll_append h
  have hon : ∀ i ∈ uniqueIndexes, i.table = (tableWith []).name := by decide +kernel
  have hdistinct : uniqueIndexes.Pairwise fun i j => Text.sameFold i.name j.name = false := by
    decide +kernel
  obtain rfl := runAll_createIndex (s := s.withDatabase { s.database with
      tables := s.database.tables ++ [tableWith []], sequence }) hindexing hon htable hlacks.names
    hdistinct hindexed
  -- its trigger
  obtain ⟨s₃, hlast, h⟩ := Statement.runAll_cons h
  obtain rfl := Except.ok.inj h
  obtain ⟨db₃, hdb₃, rfl⟩ := Statement.run_authored htrigger hlast
  obtain ⟨hthere, -⟩ | ⟨-, u, hu, rfl⟩ := Database.createTrigger_ok hdb₃
  · have hfree : s.database.trigger? touch.name = none := hlacks.trigger
    rw [← Option.not_isSome_iff_eq_none] at hfree
    exact absurd hthere hfree
  · obtain rfl := Option.some.inj (htable.symm.trans hu)
    refine ⟨htable, ?_, ?_⟩
    · change (s.database.indexes ++ uniqueIndexes).filter _ = _
      rw [List.filter_append, List.filter_eq_nil_iff.mpr fun i hi => ?_, List.nil_append]
      · decide +kernel
      · rw [hlacks.indexes i hi]
        exact Bool.false_ne_true
    · change (s.database.triggers ++ [touch]).filter _ = _
      rw [List.filter_append, List.filter_eq_nil_iff.mpr fun g hg => ?_, List.nil_append]
      · decide +kernel
      · rw [hlacks.triggers g hg]
        exact Bool.false_ne_true

end Checkpoints

end AccountHistory
