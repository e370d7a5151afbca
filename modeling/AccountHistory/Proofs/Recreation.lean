import AccountHistory.Proofs.Models
import AccountHistory.Proofs.RebuildPlan

/-!
# Making tables twice

What is missing of tables, indexes and triggers is made whenever a database is brought to a version,
so the statements that make it are run again on a database where all of it is there. They do nothing
then, as long as each of them asks for its object only if it is absent. The statements made of a
model do; the text of a trigger is its author's, and one that insists on its trigger fails the
second time, and everything else with it.

* `Database.Grows` says what making objects leaves: all that was there, and no table by the name of
  an index;
* `Command.IsDone` says that what a command makes is there. Commands that have all been obeyed are
  all done, and obeying a done command does nothing or fails;
* `Blueprint.createMissing_repeats` says when making what is missing succeeds a second time.
-/

namespace AccountHistory

open Store Sql

/-! ## Databases that grow -/

namespace Store.Database

variable {db db' : Database} {name : String} {ifAbsent : Bool}

/-- All objects are still there, and no table has taken the name of an index. -/
structure Grows (db db' : Database) : Prop where
  /-- the tables -/
  tables : ∀ n, (db.table? n).isSome = true → (db'.table? n).isSome = true
  /-- the indexes -/
  indexes : ∀ n, (db.index? n).isSome = true → (db'.index? n).isSome = true
  /-- the triggers -/
  triggers : ∀ n, (db.trigger? n).isSome = true → (db'.trigger? n).isSome = true
  /-- the names of indexes -/
  apart : ∀ n, (db.index? n).isSome = true → db.table? n = none → db'.table? n = none

theorem Grows.refl (db : Database) : db.Grows db :=
  ⟨fun _ h => h, fun _ h => h, fun _ h => h, fun _ _ h => h⟩

theorem Grows.trans {db'' : Database} (h : db.Grows db') (h' : db'.Grows db'') :
    db.Grows db'' where
  tables n hn := h'.tables n (h.tables n hn)
  indexes n hn := h'.indexes n (h.indexes n hn)
  triggers n hn := h'.triggers n (h.triggers n hn)
  apart n hn habsent := h'.apart n (h.indexes n hn) (h.apart n hn habsent)

theorem index?_congr {m n : String} (h : Text.sameFold m n = true) : db.index? m = db.index? n := by
  simp only [index?, Text.sameFold_comm _ m, Text.sameFold_comm _ n, Text.sameFold_congr h]

/-- A table is there already, or it is made and no index has its name. -/
theorem createTable_cases {columns : List ColumnDef} {rules : List TableRule}
    (h : db.createTable ifAbsent name columns rules = .ok db') :
    isReserved name = false ∧ ((db.table? name).isSome = true ∧ db' = db ∨
      db.index? name = none ∧ ∃ sequence,
        db' = { db with tables := db.tables ++ [⟨name, columns, rules, []⟩], sequence }) := by
  rw [createTable] at h
  obtain ⟨hfree, h⟩ := of_guard h
  refine ⟨by simpa using hfree, ?_⟩
  split at h
  case isTrue hthere =>
    split at h
    · exact .inl ⟨hthere, (Except.ok.inj h).symm⟩
    · cases h
  case isFalse =>
    obtain ⟨hindex, h⟩ := of_guard h
    split at h
    · cases h
    · obtain ⟨-, h⟩ := of_guard h
      split at h
      · cases h
      · exact .inr ⟨by simpa using hindex, _, (Except.ok.inj h).symm⟩

/-- Where a table is made, the database grows and has it. -/
theorem grows_createTable {columns : List ColumnDef} {rules : List TableRule}
    (h : db.createTable ifAbsent name columns rules = .ok db') :
    db.Grows db' ∧ isReserved name = false ∧ (db'.table? name).isSome = true := by
  obtain ⟨hfree, ⟨hthere, rfl⟩ | ⟨hindex, sequence, rfl⟩⟩ := createTable_cases h
  · exact ⟨.refl _, hfree, hthere⟩
  · refine ⟨⟨fun n hn => ?_, fun _ hn => hn, fun _ hn => hn, fun n hn habsent => ?_⟩, hfree, ?_⟩
    · rw [table?_append, Option.isSome_or, hn, Bool.true_or]
    · -- an index of the name would have stood in the way
      rw [table?_append, habsent, Option.none_or, if_neg]
      intro hsame
      rw [← index?_congr hsame, hindex] at hn
      cases hn
    · rw [table?_append, Text.sameFold_self, if_pos rfl, Option.isSome_or, Option.isSome_some,
        Bool.or_true]

/-- Where an index is made, the database grows and has it, on a table that is there; no table has
its name. -/
theorem grows_createIndex {clock : Int} {i : Index}
    (h : db.createIndex clock ifAbsent i = .ok db') :
    db.Grows db' ∧ (db'.table? i.table).isSome = true ∧ isReserved i.name = false ∧
      db'.table? i.name = none ∧ (db'.index? i.name).isSome = true := by
  have hmade := createIndex_ok h
  obtain ⟨t, ht, h⟩ := exists_of_bind h
  obtain ⟨hfree, h⟩ := of_guard h
  obtain ⟨htable, -⟩ := of_guard h
  have htable : db.table? i.name = none := by simpa using htable
  have hon : (db.table? i.table).isSome = true := by rw [table?_of_getTable ht]; rfl
  obtain ⟨hthere, rfl⟩ | ⟨-, t', -, rfl⟩ := hmade
  · exact ⟨.refl _, hon, by simpa using hfree, htable, hthere⟩
  · refine ⟨⟨fun _ hn => hn, fun n hn => ?_, fun _ hn => hn, fun _ _ hn => hn⟩, hon,
      by simpa using hfree, htable, ?_⟩
    · rw [index?, List.find?_append, ← index?, Option.isSome_or, hn, Bool.true_or]
    · rw [index?, List.find?_append, List.find?_singleton, if_pos (Text.sameFold_self _),
        Option.isSome_or, Option.isSome_some, Bool.or_true]

/-- Where a trigger is made, the database grows and has it, on a table that is there. -/
theorem grows_createTrigger {g : Trigger} (h : db.createTrigger ifAbsent g = .ok db') :
    db.Grows db' ∧ (db'.table? g.table).isSome = true ∧ isReserved g.name = false ∧
      (db'.trigger? g.name).isSome = true := by
  have hmade := createTrigger_ok h
  obtain ⟨t, ht, h⟩ := exists_of_bind h
  obtain ⟨hfree, -⟩ := of_guard h
  have hon : (db.table? g.table).isSome = true := by rw [table?_of_getTable ht]; rfl
  obtain ⟨hthere, rfl⟩ | ⟨-, t', -, rfl⟩ := hmade
  · exact ⟨.refl _, hon, by simpa using hfree, hthere⟩
  · refine ⟨⟨fun _ hn => hn, fun _ hn => hn, fun n hn => ?_, fun _ _ hn => hn⟩, hon,
      by simpa using hfree, ?_⟩
    · rw [trigger?, List.find?_append, ← trigger?, Option.isSome_or, hn, Bool.true_or]
    · rw [trigger?, List.find?_append, List.find?_singleton, if_pos (Text.sameFold_self _),
        Option.isSome_or, Option.isSome_some, Bool.or_true]

end Store.Database

/-! ## Commands that are done -/

namespace Sql.Command

/-- The command makes an object, or changes nothing at all. -/
def isAdditive : Command → Bool
  | .createTable .. | .createIndex .. | .createTrigger .. | .select _ | .nothing => true
  | _ => false

/-- The command makes an object and fails where there is one of its name. -/
def insists : Command → Bool
  | .createTable ifAbsent .. | .createIndex ifAbsent .. | .createTrigger ifAbsent _ => !ifAbsent
  | _ => false

/-- What the command makes is there, and nothing but that stands in its way. -/
def IsDone (db : Database) : Command → Prop
  | .createTable _ name _ _ =>
    Database.isReserved name = false ∧ (db.table? name).isSome = true
  | .createIndex _ _ name table _ _ =>
    (db.table? table).isSome = true ∧ Database.isReserved name = false ∧ db.table? name = none ∧
      (db.index? name).isSome = true
  | .createTrigger _ g =>
    (db.table? g.table).isSome = true ∧ Database.isReserved g.name = false ∧
      (db.trigger? g.name).isSome = true
  | .select es => Session.rowless es = .ok ()
  | .nothing => True
  | _ => False

variable {c : Command} {db db' : Database} {s s' : Session}

theorem IsDone.mono (h : c.IsDone db) (hgrows : db.Grows db') : c.IsDone db' := by
  cases c with
  | createTable => exact ⟨h.1, hgrows.tables _ h.2⟩
  | createIndex =>
    obtain ⟨hon, hfree, habsent, hthere⟩ := h
    exact ⟨hgrows.tables _ hon, hfree, hgrows.apart _ hthere habsent, hgrows.indexes _ hthere⟩
  | createTrigger =>
    obtain ⟨hon, hfree, hthere⟩ := h
    exact ⟨hgrows.tables _ hon, hfree, hgrows.triggers _ hthere⟩
  | select => exact h
  | nothing => exact h
  | dropTable | addColumn | renameTable | insert | insertFrom | delete | setVersion | setForeignKeys
    | setLegacyRename | setBusyTimeout => exact h.elim

/-- A command that makes an object is done where it has been obeyed, and nothing is lost. -/
theorem isDone_of_obey (hc : c.isAdditive = true) (h : s.obey true c = .ok s') :
    s.database.Grows s'.database ∧ c.IsDone s'.database := by
  cases c with
  | createTable =>
    obtain ⟨db, hdb, rfl⟩ := exists_of_map h
    exact Database.grows_createTable hdb
  | createIndex =>
    obtain ⟨db, hdb, rfl⟩ := exists_of_map h
    obtain ⟨hgrows, hdone⟩ := Database.grows_createIndex hdb
    exact ⟨hgrows, hdone⟩
  | createTrigger =>
    obtain ⟨db, hdb, rfl⟩ := exists_of_map h
    exact Database.grows_createTrigger hdb
  | select =>
    obtain ⟨⟨⟩, hrowless, rfl⟩ := exists_of_map h
    exact ⟨.refl _, hrowless⟩
  | nothing =>
    obtain rfl := Except.ok.inj h
    exact ⟨.refl _, trivial⟩
  | dropTable | addColumn | renameTable | insert | insertFrom | delete | setVersion | setForeignKeys
    | setLegacyRename | setBusyTimeout => cases hc

/-- What is made again is passed over, or refused because of its name. -/
theorem obey_of_made (ifAbsent : Bool) (name : String) {made : Except Fault Database}
    (hinsists : c.insists = !ifAbsent) (hobey : s.obey true c = made.map s.withDatabase)
    (hmade : made = if ifAbsent then .ok s.database else .error (.refused (.nameTaken name))) :
    (c.insists = false ∧ s.obey true c = .ok s) ∨
      (c.insists = true ∧ ∃ name, s.obey true c = .error (.refused (.nameTaken name))) := by
  rw [hobey, hmade, hinsists]
  cases ifAbsent with
  | true => exact .inl ⟨rfl, rfl⟩
  | false => exact .inr ⟨rfl, name, rfl⟩

/-- A command that is done does nothing more, or fails because of the name if it insists. -/
theorem IsDone.obey_eq (h : c.IsDone s.database) : (c.insists = false ∧ s.obey true c = .ok s) ∨
    (c.insists = true ∧ ∃ name, s.obey true c = .error (.refused (.nameTaken name))) := by
  cases c with
  | createTable ifAbsent name columns rules =>
    obtain ⟨hfree, hthere⟩ := h
    refine obey_of_made ifAbsent name rfl rfl ?_
    rw [Database.createTable, hfree, hthere]
    rfl
  | createIndex ifAbsent unique name table columns predicate =>
    obtain ⟨hon, hfree, habsent, hthere⟩ := h
    obtain ⟨t, ht⟩ := Option.isSome_iff_exists.mp hon
    refine obey_of_made ifAbsent name rfl rfl ?_
    rw [Database.createIndex, Database.getTable_of_table? ht]
    simp only [hfree, habsent, hthere]
    cases ifAbsent <;> rfl
  | createTrigger ifAbsent g =>
    obtain ⟨hon, hfree, hthere⟩ := h
    obtain ⟨t, ht⟩ := Option.isSome_iff_exists.mp hon
    refine obey_of_made ifAbsent g.name rfl rfl ?_
    rw [Database.createTrigger, Database.getTable_of_table? ht]
    simp only [hfree, hthere]
    cases ifAbsent <;> rfl
  | select es =>
    have hrowless : Session.rowless es = .ok () := h
    exact .inl ⟨rfl, by rw [Session.obey, hrowless]; rfl⟩
  | nothing => exact .inl ⟨rfl, rfl⟩
  | dropTable | addColumn | renameTable | insert | insertFrom | delete | setVersion | setForeignKeys
    | setLegacyRename | setBusyTimeout => exact h.elim

end Sql.Command

namespace Store.Session

variable {cs : List Command} {s s' : Session}

/-- The first of commands that are all obeyed is obeyed, and so are the others after it. -/
theorem obeyAll_cons {c : Command} (h : s.obeyAll true (c :: cs) = (s', none)) :
    ∃ s₁, s.obey true c = .ok s₁ ∧ s₁.obeyAll true cs = (s', none) := by
  rw [obeyAll] at h
  split at h
  · cases h
  case h_2 s₁ h₁ => exact ⟨s₁, h₁, h⟩

/-- Commands that make objects are all done where they have been obeyed: none loses what another
has made. -/
theorem isDone_of_obeyAll (hcs : ∀ c ∈ cs, c.isAdditive = true)
    (h : s.obeyAll true cs = (s', none)) :
    s.database.Grows s'.database ∧ ∀ c ∈ cs, c.IsDone s'.database := by
  induction cs generalizing s with
  | nil =>
    obtain rfl : s = s' := congrArg Prod.fst h
    exact ⟨.refl _, fun c hc => nomatch hc⟩
  | cons c rest ih =>
    obtain ⟨s₁, hfirst, hothers⟩ := obeyAll_cons h
    obtain ⟨hgrows, hdone⟩ := Command.isDone_of_obey (hcs c List.mem_cons_self) hfirst
    obtain ⟨hgrows', hdone'⟩ := ih (fun d hd => hcs d (List.mem_cons_of_mem c hd)) hothers
    exact ⟨hgrows.trans hgrows', List.forall_mem_cons.mpr ⟨hdone.mono hgrows', hdone'⟩⟩

/-- Commands that are all done do nothing more, or the first that insists fails because of the name.
-/
theorem obeyAll_of_isDone (hcs : ∀ c ∈ cs, c.IsDone s.database) :
    ((∀ c ∈ cs, c.insists = false) ∧ s.obeyAll true cs = (s, none)) ∨
      ((∃ c ∈ cs, c.insists = true) ∧
        ∃ name, s.obeyAll true cs = (s, some (.refused (.nameTaken name)))) := by
  induction cs with
  | nil => exact .inl ⟨by simp, rfl⟩
  | cons c rest ih =>
    obtain ⟨hdone, hrest⟩ := List.forall_mem_cons.mp hcs
    rw [obeyAll]
    obtain ⟨hyields, hobey⟩ | ⟨hinsists, name, hobey⟩ := hdone.obey_eq
    · rw [hobey]
      obtain ⟨hall, hothers⟩ | ⟨⟨d, hd, hinsists⟩, hothers⟩ := ih hrest
      · exact .inl ⟨List.forall_mem_cons.mpr ⟨hyields, hall⟩, hothers⟩
      · exact .inr ⟨⟨d, List.mem_cons_of_mem c hd, hinsists⟩, hothers⟩
    · rw [hobey]
      exact .inr ⟨⟨c, List.mem_cons_self, hinsists⟩, name, rfl⟩

/-- Commands in two parts are obeyed part by part. -/
theorem obeyAll_append (cs ds : List Command) : s.obeyAll true (cs ++ ds)
    = match s.obeyAll true cs with
      | (s', none) => s'.obeyAll true ds
      | (s', some e) => (s', some e) := by
  induction cs generalizing s with
  | nil => rfl
  | cons c rest ih =>
    rw [List.cons_append, obeyAll, obeyAll]
    split
    · rfl
    · exact ih

end Store.Session

/-! ## Statements -/

namespace Statement

variable {sts : List Statement} {s s' : Session}

/-- What a statement says: the command it stands for, or all that its text says. -/
def reading (st : Statement) : Script :=
  match st.command? with
  | some c => ⟨[c], false⟩
  | none => st.script

/-- The commands that statements say, in order. -/
def commands (sts : List Statement) : List Command :=
  sts.flatMap fun st => st.reading.commands

theorem run_eq (st : Statement) (s : Session) : st.run s true
    = match s.runScript true st.reading with
      | (_, some e) => .error e
      | (s', none) => .ok s' := by
  rw [run, reading]
  cases st.command? with
  | none => rfl
  | some c =>
    simp only [Session.runScript, Session.obeyAll]
    cases s.obey true c <;> rfl

/-- A statement that succeeds is one that can be read. -/
theorem isBroken_of_run {st : Statement} (h : st.run s true = .ok s') :
    st.reading.isBroken = false := by
  rw [run_eq, Session.runScript] at h
  cases hbroken : st.reading.isBroken with
  | false => rfl
  | true =>
    rw [hbroken] at h
    cases hobeyed : s.obeyAll true st.reading.commands with
    | mk s₁ e =>
      rw [hobeyed] at h
      cases e <;> cases h

theorem isBroken_of_runAll (h : runAll s sts = .ok s') :
    ∀ st ∈ sts, st.reading.isBroken = false := by
  induction sts generalizing s with
  | nil => exact fun st hst => nomatch hst
  | cons st rest ih =>
    obtain ⟨s₁, hfirst, hothers⟩ := runAll_cons h
    exact List.forall_mem_cons.mpr ⟨isBroken_of_run hfirst, ih hothers⟩

/-- Statements that can be read are obeyed as the commands they say. -/
theorem runAll_eq (hread : ∀ st ∈ sts, st.reading.isBroken = false) (s : Session) :
    runAll s sts = match s.obeyAll true (commands sts) with
      | (_, some e) => .error e
      | (s', none) => .ok s' := by
  induction sts generalizing s with
  | nil => rfl
  | cons st rest ih =>
    obtain ⟨hfirst, hothers⟩ := List.forall_mem_cons.mp hread
    rw [runAll_cons_eq, run_eq, Session.runScript, hfirst, commands, List.flatMap_cons,
      Session.obeyAll_append]
    cases s.obeyAll true st.reading.commands with
    | mk s₁ e =>
      cases e with
      | some e => rfl
      | none => exact ih hothers s₁

/-- Where all statements succeed, all commands they say are obeyed. -/
theorem obeyAll_of_runAll (h : runAll s sts = .ok s') :
    s.obeyAll true (commands sts) = (s', none) := by
  rw [runAll_eq (isBroken_of_runAll h)] at h
  cases hobeyed : s.obeyAll true (commands sts) with
  | mk s₁ e =>
    rw [hobeyed] at h
    cases e <;> cases h
    rfl

end Statement

/-! ## Models of plain names -/

section Plain

variable {m : Model} {table : String} {models : List (String × Model)} {statements : List Statement}

theorem Model.IsPlain.reading_createTable (hm : m.IsPlain table) {constraints : List String}
    (h : renderAll table m.constraints = .ok constraints) : ∃ columns rules,
      (Statement.createTable true table m.columns constraints).reading
        = ⟨[.createTable true table columns rules], false⟩ := by
  obtain ⟨rules, hrules, -⟩ := hm.constraints constraints h
  rw [Statement.reading, Statement.command?_createTable hm.name hm.columns hrules]
  exact ⟨_, _, rfl⟩

theorem Model.IsPlain.reading_createIndex (hm : m.IsPlain table) {i : IndexShape}
    (hi : i ∈ m.indexes ++ m.uniqueIndexes) (unique : Bool) :
    (Statement.createIndex table unique i).reading
      = ⟨[.createIndex true unique (i.name table unique) table i.columns
          (i.predicate.bind Statement.conditionOf?)], false⟩ := by
  rw [Statement.reading,
    Statement.command?_createIndex hm.name (hm.indexed i hi) (hm.conditions i hi)]

/-- A statement made of a model of plain names is one command that makes an object, and only the
text of a trigger may insist on it. -/
theorem Model.IsPlain.reading (hm : m.IsPlain table) (h : m.creation table = .ok statements) :
    ∀ st ∈ statements, ∃ c, st.reading = ⟨[c], false⟩ ∧ c.isAdditive = true ∧
      (c.insists = true → ∃ t ∈ m.triggers, ∃ text g, t.renderFor table = .ok text ∧
        Script.ofText text = ⟨[.createTrigger false g], false⟩) := by
  obtain ⟨constraints, triggers, hconstraints, htriggers, rfl⟩ := Model.creation_ok h
  intro st hst
  rw [List.cons_append, List.mem_cons, List.mem_append] at hst
  rcases hst with rfl | hst | hst
  · -- the table
    obtain ⟨columns, rules, hread⟩ := hm.reading_createTable hconstraints
    exact ⟨_, hread, rfl, fun hinsists => nomatch hinsists⟩
  · -- an index
    have hindex : ∃ unique, ∃ i ∈ m.indexes ++ m.uniqueIndexes,
        st = .createIndex table unique i := by
      rcases List.mem_append.mp hst with hst | hst
      · obtain ⟨i, hi, rfl⟩ := List.mem_map.mp hst
        exact ⟨false, i, List.mem_append_left _ hi, rfl⟩
      · obtain ⟨i, hi, rfl⟩ := List.mem_map.mp hst
        exact ⟨true, i, List.mem_append_right _ hi, rfl⟩
    obtain ⟨unique, i, hi, rfl⟩ := hindex
    exact ⟨_, hm.reading_createIndex hi unique, rfl, fun hinsists => nomatch hinsists⟩
  · -- a trigger
    obtain ⟨text, htext, rfl⟩ := List.mem_map.mp hst
    obtain ⟨ifAbsent, g, hread⟩ := hm.triggers triggers htriggers text htext
    refine ⟨_, hread, rfl, fun hinsists => ?_⟩
    obtain ⟨t, ht, hrendered⟩ := (Model.mem_renderAll htriggers).mp htext
    cases ifAbsent with
    | true => cases hinsists
    | false => exact ⟨t, ht, text, g, hrendered, hread⟩

end Plain

namespace Model

/-- The commands by which what is missing of the tables of models is made, in order. -/
def commandsOf (models : List (String × Model)) : List Command :=
  match creationAll models with
  | .ok statements => Statement.commands statements
  | .error _ => []

theorem mem_commandsOf {models : List (String × Model)} {statements : List Statement}
    (h : creationAll models = .ok statements) {c : Command} : c ∈ commandsOf models ↔
      ∃ p ∈ models, ∃ part, p.2.creation p.1 = .ok part ∧ ∃ st ∈ part, c ∈ st.reading.commands := by
  rw [commandsOf, h]
  dsimp only
  rw [Statement.commands, List.mem_flatMap]
  simp only [mem_creationAll h]
  constructor
  · rintro ⟨st, ⟨p, hp, part, hpart, hst⟩, hc⟩
    exact ⟨p, hp, part, hpart, st, hst, hc⟩
  · rintro ⟨p, hp, part, hpart, st, hst, hc⟩
    exact ⟨st, ⟨p, hp, part, hpart, hst⟩, hc⟩

/-- The trigger is made only if it is absent. -/
def GuardsTrigger (table : String) (t : Template) : Prop :=
  ∀ text, t.renderFor table = .ok text →
    ∃ g, Script.ofText text = ⟨[.createTrigger true g], false⟩

/-- Of models of plain names, all commands make objects, and none insists just if all triggers are
made only if they are absent. -/
theorem insists_commandsOf {models : List (String × Model)} {statements : List Statement}
    (h : creationAll models = .ok statements) (hplain : ∀ p ∈ models, p.2.IsPlain p.1) :
    (∀ c ∈ commandsOf models, c.isAdditive = true) ∧
      ((∀ c ∈ commandsOf models, c.insists = false) ↔
        ∀ p ∈ models, ∀ t ∈ p.2.triggers, GuardsTrigger p.1 t) := by
  -- each command is the only one of its statement
  have hsingle : ∀ c ∈ commandsOf models, c.isAdditive = true ∧
      (c.insists = true → ∃ p ∈ models, ∃ t ∈ p.2.triggers, ∃ text g,
        t.renderFor p.1 = .ok text ∧ Script.ofText text = ⟨[.createTrigger false g], false⟩) := by
    intro c hc
    obtain ⟨p, hp, part, hpart, st, hst, hc⟩ := (mem_commandsOf h).mp hc
    obtain ⟨d, hread, hadditive, hinsists⟩ := (hplain p hp).reading hpart st hst
    rw [hread, List.mem_singleton] at hc
    subst hc
    exact ⟨hadditive, fun hc => ⟨p, hp, hinsists hc⟩⟩
  refine ⟨fun c hc => (hsingle c hc).1, fun hall p hp t ht text htext => ?_, fun hall c hc => ?_⟩
  · obtain ⟨part, hpart⟩ := exists_creation h p hp
    obtain ⟨_, triggers, _, htriggers, rfl⟩ := creation_ok hpart
    have hmem := (mem_renderAll htriggers).mpr ⟨t, ht, htext⟩
    obtain ⟨ifAbsent, g, hread⟩ := (hplain p hp).triggers triggers htriggers text hmem
    have hc : .createTrigger ifAbsent g ∈ commandsOf models := by
      refine (mem_commandsOf h).mpr ⟨p, hp, _, hpart, .authored text, ?_, ?_⟩
      · exact List.mem_append_right _ (List.mem_map_of_mem hmem)
      · change _ ∈ (Script.ofText text).commands
        rw [hread]
        exact List.mem_singleton_self _
    have hyields := hall _ hc
    cases ifAbsent with
    | true => exact ⟨g, hread⟩
    | false => cases hyields
  · by_contra hinsists
    obtain ⟨p, hp, t, ht, text, g, htext, hread⟩ :=
      (hsingle c hc).2 (by simpa using hinsists)
    obtain ⟨g', hread'⟩ := hall p hp t ht text htext
    rw [hread] at hread'
    cases hread'

end Model

namespace Blueprint

theorem createMissing_ok {models : List (String × Model)} {s s' : Session} {n : Nat}
    (h : createMissing models s = .ok (s', n)) : ∃ statements,
      Model.creationAll models = .ok statements ∧ Statement.runAll s statements = .ok s' ∧
        n = statements.length := by
  rw [createMissing, createMissingBy] at h
  split at h
  · cases h
  case h_2 statements hmade =>
    split at h
    · cases h
    case h_2 s₁ hrun =>
      cases h
      exact ⟨statements, hmade, hrun, rfl⟩

/-- Where what is missing is made, all commands for the models are obeyed. -/
theorem obeyAll_of_createMissing {models : List (String × Model)} {s s' : Session} {n : Nat}
    (h : createMissing models s = .ok (s', n)) :
    s.obeyAll true (Model.commandsOf models) = (s', none) := by
  obtain ⟨statements, hmade, hrun, -⟩ := createMissing_ok h
  rw [Model.commandsOf, hmade]
  exact Statement.obeyAll_of_runAll hrun

/-- The second time, statements that make objects do nothing, or one that insists fails because of
the name. -/
theorem createMissing_again {models : List (String × Model)} {s s' : Session} {n : Nat}
    (h : createMissing models s = .ok (s', n))
    (hadditive : ∀ c ∈ Model.commandsOf models, c.isAdditive = true) :
    ((∀ c ∈ Model.commandsOf models, c.insists = false) ∧
        createMissing models s' = .ok (s', n)) ∨
      ((∃ c ∈ Model.commandsOf models, c.insists = true) ∧
        ∃ name, createMissing models s' = .error (.store (.refused (.nameTaken name)))) := by
  -- the first time leaves all commands done
  obtain ⟨-, hdone⟩ := Session.isDone_of_obeyAll hadditive (obeyAll_of_createMissing h)
  -- and the second time obeys them on what the first has left
  obtain ⟨statements, hmade, hrun, rfl⟩ := createMissing_ok h
  rw [Model.commandsOf, hmade] at hdone ⊢
  rw [createMissing, createMissingBy, hmade]
  dsimp only
  rw [← Statement.runAll, Statement.runAll_eq (Statement.isBroken_of_runAll hrun)]
  obtain ⟨hyield, hagain⟩ | ⟨hinsists, name, hagain⟩ := Session.obeyAll_of_isDone hdone
  · rw [hagain]
    exact .inl ⟨hyield, rfl⟩
  · rw [hagain]
    exact .inr ⟨hinsists, name, rfl⟩

/-- **Making what is missing, twice.** Where it succeeds with statements that make objects and do
nothing else, it succeeds again, with the same number of statements and without a change, if and
only if none of them insists on its object; otherwise it fails because a name is taken. Of models of
plain names, none insists if and only if all triggers are made only if they are absent. -/
theorem createMissing_repeats {models : List (String × Model)} {s s' : Session} {n : Nat}
    (h : createMissing models s = .ok (s', n)) :
    ((∀ c ∈ Model.commandsOf models, c.isAdditive = true) →
      (createMissing models s' = .ok (s', n) ↔
        ∀ c ∈ Model.commandsOf models, c.insists = false) ∧
      (createMissing models s' = .ok (s', n) ∨
        ∃ name, createMissing models s' = .error (.store (.refused (.nameTaken name))))) ∧
    ((∀ p ∈ models, p.2.IsPlain p.1) →
      (createMissing models s' = .ok (s', n) ↔
        ∀ p ∈ models, ∀ t ∈ p.2.triggers, Model.GuardsTrigger p.1 t)) := by
  have hiff (hadditive : ∀ c ∈ Model.commandsOf models, c.isAdditive = true) :
      createMissing models s' = .ok (s', n) ↔
        ∀ c ∈ Model.commandsOf models, c.insists = false := by
    obtain ⟨hyield, hagain⟩ | ⟨⟨c, hc, hinsists⟩, name, hagain⟩ := createMissing_again h hadditive
    · exact iff_of_true hagain hyield
    · refine iff_of_false (fun hok => ?_) (fun hyield => ?_)
      · rw [hagain] at hok
        cases hok
      · rw [hyield c hc] at hinsists
        cases hinsists
  refine ⟨fun hadditive => ⟨hiff hadditive, ?_⟩, fun hplain => ?_⟩
  · exact (createMissing_again h hadditive).imp And.right And.right
  · obtain ⟨statements, hmade, -, -⟩ := createMissing_ok h
    obtain ⟨hadditive, hguards⟩ := Model.insists_commandsOf hmade hplain
    exact (hiff hadditive).trans hguards

/-- A table with a trigger that is to be made in any case. -/
def watched : Model where
  columns := [⟨"_id", .idPrimaryKey⟩, ⟨"mts", .bigint⟩]
  constraints := []
  triggers := [⟨"CREATE TRIGGER seen AFTER INSERT ON #\x7btableName\x7d BEGIN SELECT 1; END"⟩]
  indexes := [⟨["mts"], none⟩]
  uniqueIndexes := []

theorem isPlain_watched : watched.IsPlain "t" where
  name := by decide +kernel
  columns := by decide +kernel
  indexed := by decide +kernel
  conditions := by
    intro i hi text htext
    obtain rfl := List.mem_singleton.mp hi
    cases htext
  constraints := by
    intro texts htexts
    obtain rfl := Except.ok.inj htexts
    exact ⟨[], rfl, nofun⟩
  triggers := by
    intro texts htexts text htext
    have hrendered : Model.renderAll "t" watched.triggers
        = .ok ["CREATE TRIGGER seen AFTER INSERT ON t BEGIN SELECT 1; END"] := by
      decide +kernel
    obtain rfl := Except.ok.inj (hrendered.symm.trans htexts)
    obtain rfl := List.mem_singleton.mp htext
    exact ⟨false, ⟨"seen", "t", .insert, none, [.select [.const (.int 1)]]⟩, by decide +kernel⟩

/-- The table, its index and its trigger are made. The second time the trigger is there, which was
not to be, and all of it fails. -/
theorem createMissing_repeats_watched : ∃ s' : Session,
    createMissing [("t", watched)] (.start .empty 0) = .ok (s', 3) ∧ watched.IsPlain "t" ∧
      (∀ c ∈ Model.commandsOf [("t", watched)], c.isAdditive = true) ∧
      (∃ name, createMissing [("t", watched)] s' = .error (.store (.refused (.nameTaken name)))) ∧
      ¬∀ t ∈ watched.triggers, Model.GuardsTrigger "t" t := by
  have hmade : (createMissing [("t", watched)] (.start .empty 0)).toOption.map Prod.snd
      = some 3 := by
    decide +kernel
  obtain ⟨⟨s', n⟩, hs', rfl⟩ := Option.map_eq_some_iff.mp hmade
  have h := of_toOption hs'
  have hadditive : ∀ c ∈ Model.commandsOf [("t", watched)], c.isAdditive = true := by
    decide +kernel
  have hinsists : ¬∀ c ∈ Model.commandsOf [("t", watched)], c.insists = false := by
    decide +kernel
  obtain ⟨hgeneral, hguards⟩ := createMissing_repeats h
  obtain ⟨hiff, hends⟩ := hgeneral hadditive
  have hfails := hends.resolve_left fun hok => hinsists (hiff.mp hok)
  refine ⟨s', h, isPlain_watched, hadditive, hfails, fun hguarded => hinsists (hiff.mp ?_)⟩
  have hplain : ∀ p ∈ [("t", watched)], p.2.IsPlain p.1 := by
    intro p hp
    obtain rfl := List.mem_singleton.mp hp
    exact isPlain_watched
  refine (hguards hplain).mpr fun p hp => ?_
  obtain rfl := List.mem_singleton.mp hp
  exact hguarded

end Blueprint

end AccountHistory
