import Mathlib.Data.List.Forall2
import AccountHistory.Proofs.IndexNames
import AccountHistory.Proofs.Recreation

/-!
# Names of indexes on different tables

The names of indexes are shared by all tables of a database. The name of an index begins with that
of its table and goes on behind an underscore, and both names and columns may contain underscores,
so an index on `a` may be called like one on `a_b`.

* `IndexShape.RunsInto` says when this happens: the name of the second table goes on behind that of
  the first with the beginning of the columns, and the rest is the ending of the second index;
* `Model.indexNames_apart` says that tables whose names have no underscores are safe, like those of
  this library;
* `Session.indexes_of_obeyAll` says which indexes are there behind commands that make objects. An
  index whose name is taken, up to case, is passed over in silence;
* `Model.indexNames_across` says of two tables that they share a name just if an index on one of
  them runs into one on the other, and that their indexes are all made, as they are declared, just
  if no two names agree up to case.
-/

namespace AccountHistory

open Store Sql

/-! ## Names -/

namespace IndexShape

variable {i j : IndexShape} {table table' : String} {u v : Bool}

/-- What the name of an index has behind its table and an underscore. -/
def ending (spec : IndexShape) (unique : Bool) : String :=
  spec.joined ++ spec.mark unique

/-- The index begins with what the name of the other table has behind this one, and ends like the
other index. -/
def RunsInto (i : IndexShape) (u : Bool) (table : String) (j : IndexShape) (v : Bool)
    (table' : String) : Prop :=
  ∃ w, table' = table ++ "_" ++ w ∧ i.ending u = w ++ "_" ++ j.ending v

theorem name_eq_ending (spec : IndexShape) (table : String) (unique : Bool) :
    spec.name table unique = table ++ "_" ++ spec.ending unique := by
  simp only [name, ending, mark, String.append_assoc]

/-- Two texts that are cut at a letter agree if they are cut at one place, or one of them begins
with the beginning of the other, that letter, and more. -/
theorem append_cons_eq_iff {α : Type} {a : α} {s t x y : List α} : s ++ a :: x = t ++ a :: y ↔
    (s = t ∧ x = y) ∨ (∃ w, t = s ++ a :: w ∧ x = w ++ a :: y) ∨
      ∃ w, s = t ++ a :: w ∧ y = w ++ a :: x := by
  constructor
  · intro h
    obtain ⟨more, hmore, hrest⟩ | ⟨more, hmore, hrest⟩ := List.append_eq_append_iff.mp h
    · cases more with
      | nil => exact .inl ⟨by simpa using hmore.symm, (List.cons.inj hrest).2⟩
      | cons b w =>
        obtain ⟨rfl, hw⟩ := List.cons.inj hrest
        exact .inr (.inl ⟨w, hmore, hw⟩)
    · cases more with
      | nil => exact .inl ⟨by simpa using hmore, (List.cons.inj hrest).2.symm⟩
      | cons b w =>
        obtain ⟨rfl, hw⟩ := List.cons.inj hrest
        exact .inr (.inr ⟨w, hmore, hw⟩)
  · rintro (⟨rfl, rfl⟩ | ⟨w, rfl, rfl⟩ | ⟨w, rfl, rfl⟩) <;> simp

/-- The same for texts and the underscore. -/
theorem append_underscore_eq_iff {s t x y : String} : s ++ "_" ++ x = t ++ "_" ++ y ↔
    (s = t ∧ x = y) ∨ (∃ w, t = s ++ "_" ++ w ∧ x = w ++ "_" ++ y) ∨
      ∃ w, s = t ++ "_" ++ w ∧ y = w ++ "_" ++ x := by
  have hlist (p q : String) : (p ++ "_" ++ q).toList = p.toList ++ '_' :: q.toList := by
    simp [String.toList_append]
  have hcut (p q r : String) : p = q ++ "_" ++ r ↔ p.toList = q.toList ++ '_' :: r.toList := by
    rw [← hlist, String.toList_inj]
  have hexists (p q x y : String) : (∃ w, p = q ++ "_" ++ w ∧ x = w ++ "_" ++ y) ↔
      ∃ w, p.toList = q.toList ++ '_' :: w ∧ x.toList = w ++ '_' :: y.toList := by
    constructor
    · rintro ⟨w, hp, hx⟩
      exact ⟨w.toList, (hcut _ _ _).mp hp, (hcut _ _ _).mp hx⟩
    · rintro ⟨w, hp, hx⟩
      exact ⟨.ofList w, (hcut _ _ _).mpr (by rw [hp, String.toList_ofList]),
        (hcut _ _ _).mpr (by rw [hx, String.toList_ofList])⟩
  rw [hcut, hlist, append_cons_eq_iff, hexists, hexists, String.toList_inj, String.toList_inj]

/-- Indexes on different tables have one name just if one of them runs into the other. -/
theorem name_eq_iff_of_ne (h : table ≠ table') : i.name table u = j.name table' v ↔
    i.RunsInto u table j v table' ∨ j.RunsInto v table' i u table := by
  rw [name_eq_ending, name_eq_ending, append_underscore_eq_iff]
  exact or_iff_right fun hsame => h hsame.1

/-- No index runs into one on a table whose name has no underscore. -/
theorem not_runsInto (h : '_' ∉ table'.toList) : ¬i.RunsInto u table j v table' := by
  rintro ⟨w, rfl, -⟩
  apply h
  simp [String.toList_append]

end IndexShape

/-! ## Indexes that are made -/

/-- The index is the one that was asked for; its table may be spelled in another case. -/
def Store.Index.Realizes (made asked : Index) : Prop :=
  Text.sameFold made.table asked.table = true ∧ made = { asked with table := made.table }

/-- The index that a command asks for. -/
def Sql.Command.asked? : Command → Option Index
  | .createIndex _ unique name table columns predicate =>
    some ⟨name, table, unique, columns, predicate⟩
  | _ => none

namespace Store.Session

variable {c : Command} {cs : List Command} {s s' : Session}

/-- A command that makes an object leaves the indexes as they are, or it asks for one, which is
passed over if its name is taken and else comes last. -/
theorem indexes_of_obey (hc : c.isAdditive = true) (h : s.obey true c = .ok s') :
    (c.asked? = none ∧ s'.database.indexes = s.database.indexes) ∨
      ∃ asked, c.asked? = some asked ∧
        ((s.database.index? asked.name ≠ none ∧ s'.database.indexes = s.database.indexes) ∨
          (s.database.index? asked.name = none ∧ ∃ made : Index, made.Realizes asked ∧
            s'.database.indexes = s.database.indexes ++ [made])) := by
  cases c with
  | createTable =>
    obtain ⟨db, hdb, rfl⟩ := exists_of_map h
    obtain ⟨-, ⟨-, rfl⟩ | ⟨-, sequence, rfl⟩⟩ := Database.createTable_cases hdb
    · exact .inl ⟨rfl, rfl⟩
    · exact .inl ⟨rfl, rfl⟩
  | createIndex ifAbsent unique name table columns predicate =>
    obtain ⟨db, hdb, rfl⟩ := exists_of_map h
    refine .inr ⟨_, rfl, ?_⟩
    obtain ⟨hthere, rfl⟩ | ⟨hfree, t, ht, rfl⟩ := Database.createIndex_ok hdb
    · exact .inl ⟨Option.isSome_iff_ne_none.mp hthere, rfl⟩
    · have hsame : Text.sameFold t.name table = true := by
        simpa using List.find?_some ht
      exact .inr ⟨hfree, ⟨name, t.name, unique, columns, predicate⟩, ⟨hsame, rfl⟩, rfl⟩
  | createTrigger =>
    obtain ⟨db, hdb, rfl⟩ := exists_of_map h
    obtain ⟨-, rfl⟩ | ⟨-, t, -, rfl⟩ := Database.createTrigger_ok hdb
    · exact .inl ⟨rfl, rfl⟩
    · exact .inl ⟨rfl, rfl⟩
  | select =>
    obtain ⟨-, -, rfl⟩ := exists_of_map h
    exact .inl ⟨rfl, rfl⟩
  | nothing =>
    obtain rfl := Except.ok.inj h
    exact .inl ⟨rfl, rfl⟩
  | dropTable | addColumn | renameTable | insert | insertFrom | delete | setVersion | setForeignKeys
    | setLegacyRename | setBusyTimeout => cases hc

/-- **Which indexes commands make.** Commands that make objects add indexes behind those that are
there. All that they ask for are made just if their names differ, up to case, and none is taken
before. -/
theorem indexes_of_obeyAll (hcs : ∀ c ∈ cs, c.isAdditive = true)
    (h : s.obeyAll true cs = (s', none)) :
    ∃ made, s'.database.indexes = s.database.indexes ++ made ∧
      made.length ≤ (cs.filterMap Command.asked?).length ∧
      (List.Forall₂ Index.Realizes made (cs.filterMap Command.asked?) ↔
        ((cs.filterMap Command.asked?).map Index.name).Pairwise
            (fun a b => Text.sameFold a b = false) ∧
          ∀ n ∈ (cs.filterMap Command.asked?).map Index.name, s.database.index? n = none) := by
  induction cs generalizing s with
  | nil =>
    obtain rfl : s = s' := congrArg Prod.fst h
    refine ⟨[], (List.append_nil _).symm, Nat.le_refl _, iff_of_true .nil ⟨.nil, ?_⟩⟩
    exact fun n hn => nomatch hn
  | cons c rest ih =>
    obtain ⟨s₁, hfirst, hothers⟩ := obeyAll_cons h
    obtain ⟨made, hmade, hle, hiff⟩ := ih (fun d hd => hcs d (.tail c hd)) hothers
    -- whether a name is free depends on the indexes only
    have hnames (db : Database) (n : String) (hdb : db.indexes = s.database.indexes) :
        db.index? n = s.database.index? n := by
      rw [Database.index?, hdb, Database.index?]
    obtain ⟨hasked, hsame⟩ | ⟨asked, hasked, hcases⟩ :=
      indexes_of_obey (hcs c List.mem_cons_self) hfirst
    · -- no index is asked for
      simp only [List.filterMap_cons, hasked]
      simp only [hnames _ _ hsame] at hiff
      exact ⟨made, hsame ▸ hmade, hle, hiff⟩
    · simp only [List.filterMap_cons, hasked, List.map_cons, List.length_cons]
      obtain ⟨htaken, hsame⟩ | ⟨hfree, i, hi, hsame⟩ := hcases
      · -- it is passed over, so there are fewer than were asked for
        refine ⟨made, hsame ▸ hmade, Nat.le_succ_of_le hle, iff_of_false (fun hall => ?_) ?_⟩
        · have hlength := hall.length_eq
          rw [List.length_cons] at hlength
          omega
        · exact fun hall => htaken (hall.2 _ List.mem_cons_self)
      · -- it is made, and takes its name from the others
        refine ⟨i :: made, ?_, Nat.succ_le_succ hle, ?_⟩
        · rw [hmade, hsame, List.append_assoc, List.singleton_append]
        · have hname : i.name = asked.name := by rw [hi.2]
          have htaken (n : String) : s₁.database.index? n = none ↔
              s.database.index? n = none ∧ Text.sameFold asked.name n = false := by
            rw [← hname, ← Statement.index?_concat, Database.index?, hsame, Database.index?]
          simp only [htaken, forall_and] at hiff
          rw [List.forall₂_cons, hiff, List.pairwise_cons, List.forall_mem_cons]
          constructor
          · rintro ⟨-, hpair, hall, hnew⟩
            exact ⟨⟨hnew, hpair⟩, hfree, hall⟩
          · rintro ⟨⟨hnew, hpair⟩, -, hall⟩
            exact ⟨hi, hpair, hall, hnew⟩

end Store.Session

/-! ## Indexes that models declare -/

namespace Model

/-- The indexes that a model declares on a table. -/
def askedIndexes (m : Model) (table : String) : List Index :=
  m.declared.map fun p =>
    ⟨p.2.name table p.1, table, p.1, p.2.columns, p.2.predicate.bind Statement.conditionOf?⟩

variable {m : Model} {table : String}

theorem map_name_askedIndexes :
    (m.askedIndexes table).map Index.name = m.indexNames table := by
  simp [askedIndexes, indexNames, Function.comp_def]

end Model

namespace Statement

/-- The index that a statement asks for. -/
def asked? : Statement → Option Index
  | .createIndex table unique spec =>
    some ⟨spec.name table unique, table, unique, spec.columns, spec.predicate.bind conditionOf?⟩
  | _ => none

/-- The statement is one command, which asks for the same index. -/
def IsObeyed (st : Statement) : Prop :=
  ∃ c, st.reading = ⟨[c], false⟩ ∧ c.asked? = st.asked?

theorem filterMap_commands {sts : List Statement} (h : ∀ st ∈ sts, st.IsObeyed) :
    (commands sts).filterMap Command.asked? = sts.filterMap asked? := by
  induction sts with
  | nil => rfl
  | cons st rest ih =>
    obtain ⟨⟨c, hread, hasked⟩, hrest⟩ := List.forall_mem_cons.mp h
    rw [commands, List.flatMap_cons, ← commands, hread, List.singleton_append,
      List.filterMap_cons, List.filterMap_cons, hasked, ih hrest]

end Statement

namespace Model

variable {m n : Model} {table : String} {models : List (String × Model)}
  {statements : List Statement}

/-- Statements of a model of plain names ask for the indexes that the model declares. -/
theorem IsPlain.isObeyed (hm : m.IsPlain table) (h : m.creation table = .ok statements) :
    ∀ st ∈ statements, st.IsObeyed := by
  obtain ⟨constraints, triggers, hconstraints, htriggers, rfl⟩ := creation_ok h
  intro st hst
  rw [indexStatements_eq, List.cons_append, List.mem_cons, List.mem_append] at hst
  rcases hst with rfl | hst | hst
  · -- the table
    obtain ⟨columns, rules, hread⟩ := hm.reading_createTable hconstraints
    exact ⟨_, hread, rfl⟩
  · -- an index
    obtain ⟨p, hp, rfl⟩ := List.mem_map.mp hst
    have hmem : p.2 ∈ m.indexes ++ m.uniqueIndexes := by
      rcases List.mem_append.mp hp with hp | hp
      · obtain ⟨i, hi, rfl⟩ := List.mem_map.mp hp
        exact List.mem_append_left _ hi
      · obtain ⟨i, hi, rfl⟩ := List.mem_map.mp hp
        exact List.mem_append_right _ hi
    exact ⟨_, hm.reading_createIndex hmem p.1, rfl⟩
  · -- a trigger
    obtain ⟨text, htext, rfl⟩ := List.mem_map.mp hst
    obtain ⟨ifAbsent, g, hread⟩ := hm.triggers triggers htriggers text htext
    exact ⟨_, hread, rfl⟩

theorem filterMap_creation (h : m.creation table = .ok statements) :
    statements.filterMap Statement.asked? = m.askedIndexes table := by
  obtain ⟨constraints, triggers, -, -, rfl⟩ := creation_ok h
  have htriggers : (triggers.map Statement.authored).filterMap Statement.asked? = [] := by
    simp [Statement.asked?]
  have hindexes : (m.indexStatements table).filterMap Statement.asked? = m.askedIndexes table := by
    rw [indexStatements_eq, List.filterMap_map, askedIndexes, ← List.filterMap_eq_map]
    rfl
  rw [List.cons_append, List.filterMap_cons_none rfl, List.filterMap_append, hindexes, htriggers,
    List.append_nil]

/-- The indexes that models declare on their tables. -/
def allAsked (models : List (String × Model)) : List Index :=
  models.flatMap fun p => p.2.askedIndexes p.1

theorem map_name_allAsked :
    (allAsked models).map Index.name = models.flatMap fun p => p.2.indexNames p.1 := by
  simp only [allAsked, List.map_flatMap, map_name_askedIndexes]

theorem filterMap_creationAll (h : creationAll models = .ok statements) :
    statements.filterMap Statement.asked? = allAsked models := by
  induction models generalizing statements with
  | nil =>
    obtain rfl := Except.ok.inj h
    rfl
  | cons p rest ih =>
    obtain ⟨first, hfirst, h⟩ := exists_of_bind h
    obtain ⟨others, hothers, h⟩ := exists_of_bind h
    obtain rfl := Except.ok.inj h
    rw [List.filterMap_append, filterMap_creation hfirst, ih hothers, allAsked, allAsked,
      List.flatMap_cons]

/-- The commands for models of plain names ask for the indexes that the models declare. -/
theorem asked_commandsOf (h : creationAll models = .ok statements)
    (hplain : ∀ p ∈ models, p.2.IsPlain p.1) :
    (commandsOf models).filterMap Command.asked? = allAsked models := by
  have hobeyed : ∀ st ∈ statements, st.IsObeyed := by
    intro st hst
    obtain ⟨p, hp, part, hpart, hst⟩ := (mem_creationAll h).mp hst
    exact (hplain p hp).isObeyed hpart st hst
  rw [commandsOf, h, ← filterMap_creationAll h]
  exact Statement.filterMap_commands hobeyed

end Model

/-- **Which indexes are made.** Where making what is missing of models of plain names succeeds, with
no declared name taken before, all indexes are made as they are declared if and only if no two names
agree up to case. -/
theorem Blueprint.indexes_createMissing {models : List (String × Model)} {s s' : Session} {k : Nat}
    (hplain : ∀ p ∈ models, p.2.IsPlain p.1)
    (hfree : ∀ name ∈ models.flatMap fun p => p.2.indexNames p.1, s.database.index? name = none)
    (h : createMissing models s = .ok (s', k)) :
    ∃ made, s'.database.indexes = s.database.indexes ++ made ∧
      (List.Forall₂ Index.Realizes made (Model.allAsked models) ↔
        (models.flatMap fun p => p.2.indexNames p.1).Pairwise
          fun a b => Text.sameFold a b = false) := by
  obtain ⟨statements, hmade, -, -⟩ := createMissing_ok h
  obtain ⟨made, hindexes, -, hiff⟩ := Session.indexes_of_obeyAll
    (Model.insists_commandsOf hmade hplain).1 (obeyAll_of_createMissing h)
  rw [Model.asked_commandsOf hmade hplain, Model.map_name_allAsked] at hiff
  exact ⟨made, hindexes, hiff.trans (and_iff_left hfree)⟩

namespace Model

/-- Tables whose names have no underscores share no names of indexes. -/
theorem indexNames_apart {m n : Model} {t u : String} (h : t ≠ u) (ht : '_' ∉ t.toList)
    (hu : '_' ∉ u.toList) : ∀ name ∈ m.indexNames t, name ∉ n.indexNames u := by
  intro name hm hn
  obtain ⟨p, -, rfl⟩ := List.mem_map.mp hm
  obtain ⟨q, -, hname⟩ := List.mem_map.mp hn
  obtain hruns | hruns := (IndexShape.name_eq_iff_of_ne h).mp hname.symm
  · exact IndexShape.not_runsInto hu hruns
  · exact IndexShape.not_runsInto ht hruns

/-- The tables of this library share none. -/
theorem indexNames_apart_of_mem {p q : String × Model} (hp : p ∈ Tables.models)
    (hq : q ∈ Tables.models) (h : p.1 ≠ q.1) :
    ∀ name ∈ p.2.indexNames p.1, name ∉ q.2.indexNames q.1 := by
  have hentries : ∀ e ∈ Tables.entries, '_' ∉ e.name.toList := by decide +kernel
  have hplain (r : String × Model) (hr : r ∈ Tables.models) : '_' ∉ r.1.toList := by
    obtain ⟨e, he, hmodel⟩ := List.mem_filterMap.mp hr
    obtain ⟨m, -, rfl⟩ := Option.map_eq_some_iff.mp hmodel
    exact hentries e he
  exact indexNames_apart h (hplain p hp) (hplain q hq)

/-- **Names of indexes across tables.** On two tables of different names, two indexes bear one name
if and only if one of them runs into the other. Where both tables are made with models of plain
names, and no declared name is taken before, all indexes of both are made as they are declared if
and only if neither the names on one table nor those across the two agree up to case. -/
theorem indexNames_across {m n : Model} {t u : String} (h : t ≠ u) :
    ((∃ name, name ∈ m.indexNames t ∧ name ∈ n.indexNames u) ↔
      ∃ p ∈ m.declared, ∃ q ∈ n.declared,
        p.2.RunsInto p.1 t q.2 q.1 u ∨ q.2.RunsInto q.1 u p.2 p.1 t) ∧
    (m.IsPlain t → n.IsPlain u → ∀ (s s' : Session) (k : Nat),
      (∀ name ∈ m.indexNames t ++ n.indexNames u, s.database.index? name = none) →
      Blueprint.createMissing [(t, m), (u, n)] s = .ok (s', k) →
        ∃ made, s'.database.indexes = s.database.indexes ++ made ∧
          (List.Forall₂ Index.Realizes made (m.askedIndexes t ++ n.askedIndexes u) ↔
            (m.indexNames t).Pairwise (fun a b => Text.sameFold a b = false) ∧
              (n.indexNames u).Pairwise (fun a b => Text.sameFold a b = false) ∧
                ∀ a ∈ m.indexNames t, ∀ b ∈ n.indexNames u, Text.sameFold a b = false)) := by
  constructor
  · simp only [indexNames, List.mem_map]
    constructor
    · rintro ⟨name, ⟨p, hp, rfl⟩, q, hq, hname⟩
      exact ⟨p, hp, q, hq, (IndexShape.name_eq_iff_of_ne h).mp hname.symm⟩
    · rintro ⟨p, hp, q, hq, hruns⟩
      exact ⟨_, ⟨p, hp, rfl⟩, q, hq, ((IndexShape.name_eq_iff_of_ne h).mpr hruns).symm⟩
  · intro hm hn s s' k hfree hmade
    have hplain : ∀ p ∈ [(t, m), (u, n)], p.2.IsPlain p.1 := by
      intro p hp
      rcases List.mem_cons.mp hp with rfl | hp
      · exact hm
      · obtain rfl := List.mem_singleton.mp hp
        exact hn
    have hnames : ([(t, m), (u, n)].flatMap fun p => p.2.indexNames p.1)
        = m.indexNames t ++ n.indexNames u := by
      simp
    have hasked : allAsked [(t, m), (u, n)] = m.askedIndexes t ++ n.askedIndexes u := by
      simp [allAsked]
    have hindexes := Blueprint.indexes_createMissing hplain (hnames ▸ hfree) hmade
    rwa [hnames, hasked, List.pairwise_append] at hindexes

/-- A column whose values differ. -/
def distinctValues (column : String) : Definition :=
  ⟨[(column, .scalar "BIGINT"), ("__uniqueIndexes__", .list [column])]⟩

/-- The model of it. -/
def distinctValuesModel (column : String) : Model where
  columns := [⟨"_id", .idPrimaryKey⟩, ⟨column, .bigint⟩]
  constraints := []
  triggers := []
  indexes := []
  uniqueIndexes := [⟨[column], none⟩]

theorem isPlain_distinctValuesModel {table column : String} (htable : isPlainName table = true)
    (hcolumn : isPlainName column = true) : (distinctValuesModel column).IsPlain table where
  name := htable
  columns := by
    intro c hc
    rcases List.mem_cons.mp hc with rfl | hc
    · decide +kernel
    · obtain rfl := List.mem_singleton.mp hc
      exact hcolumn
  indexed := by
    intro i hi c hc
    obtain rfl := List.mem_singleton.mp hi
    obtain rfl := List.mem_singleton.mp hc
    exact hcolumn
  conditions := by
    intro i hi text htext
    obtain rfl := List.mem_singleton.mp hi
    cases htext
  constraints := by
    intro texts htexts
    obtain rfl := Except.ok.inj htexts
    exact ⟨[], rfl, nofun⟩
  triggers := by
    intro texts htexts text htext
    obtain rfl := Except.ok.inj htexts
    cases htext

/-- Two tables, each of which is to have distinct values in its column. All statements succeed, and
the second one has no index: it was to be called like that of the first. -/
theorem indexNames_across_nested :
    (distinctValuesModel "b_c").IsAccepted ∧ (distinctValuesModel "c").IsAccepted ∧
      "a" ≠ "a_b" ∧ (∃ name, name ∈ (distinctValuesModel "b_c").indexNames "a" ∧
        name ∈ (distinctValuesModel "c").indexNames "a_b") ∧
      ∃ s' : Session, Blueprint.createMissing
          [("a", distinctValuesModel "b_c"), ("a_b", distinctValuesModel "c")] (.start .empty 0)
            = .ok (s', 4) ∧
        ¬List.Forall₂ Index.Realizes s'.database.indexes
          ((distinctValuesModel "b_c").askedIndexes "a"
            ++ (distinctValuesModel "c").askedIndexes "a_b") := by
  have hne : "a" ≠ "a_b" := by decide
  have hnames : (distinctValuesModel "b_c").indexNames "a" = ["a_b_c_unique"] ∧
      (distinctValuesModel "c").indexNames "a_b" = ["a_b_c_unique"] := by
    decide +kernel
  have hmade : (Blueprint.createMissing
      [("a", distinctValuesModel "b_c"), ("a_b", distinctValuesModel "c")]
        (.start .empty 0)).toOption.map Prod.snd = some 4 := by
    decide +kernel
  obtain ⟨⟨s', k⟩, hs', rfl⟩ := Option.map_eq_some_iff.mp hmade
  obtain ⟨hshared, hindexes⟩ := indexNames_across (m := distinctValuesModel "b_c")
    (n := distinctValuesModel "c") hne
  refine ⟨.inl ⟨distinctValues "b_c", .standard, of_toOption (by decide +kernel)⟩,
    .inl ⟨distinctValues "c", .standard, of_toOption (by decide +kernel)⟩, hne,
    hshared.mpr ?_, s', of_toOption hs', fun hall => ?_⟩
  · exact ⟨(true, ⟨["b_c"], none⟩), by decide, (true, ⟨["c"], none⟩), by decide,
      .inl ⟨"b", by decide, by decide +kernel⟩⟩
  · obtain ⟨made, hmade, hiff⟩ := hindexes
      (isPlain_distinctValuesModel (by decide +kernel) (by decide +kernel))
      (isPlain_distinctValuesModel (by decide +kernel) (by decide +kernel))
      (.start .empty 0) s' 4 (fun name _ => rfl) (of_toOption hs')
    obtain rfl : s'.database.indexes = made := hmade
    have hapart := (hiff.mp hall).2.2 "a_b_c_unique" (by rw [hnames.1]; exact .head _)
      "a_b_c_unique" (by rw [hnames.2]; exact .head _)
    rw [Text.sameFold_self] at hapart
    cases hapart

end Model

end AccountHistory
