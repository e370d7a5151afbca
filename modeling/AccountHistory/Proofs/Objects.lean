import Mathlib.Data.List.Find
import AccountHistory.Proofs.Outcomes
import AccountHistory.Proofs.Rows
import AccountHistory.Store.Objects

/-!
# Statements on tables, indexes and triggers

What has happened where such a statement succeeds, and how tables are found behind it. Of a table
that is renamed only the name changes, if nothing that calls it by its name follows.
-/

namespace AccountHistory

namespace Store

open Sql

namespace Database

/-! ## Reserved names -/

/-- Names that agree up to case are both reserved or both free. -/
theorem isReserved_congr {m n : String} (h : Text.sameFold m n = true) :
    isReserved m = isReserved n := by
  rw [isReserved, isReserved, Text.map_small_of_sameFold h]

/-- What has a free name is read as a table of the database. -/
theorem readable?_of_free {db : Database} {n : String} (h : isReserved n = false) :
    db.readable? n = db.table? n := by
  have hfree : ∀ m, isReserved m = true → Text.sameFold n m = false := by
    intro m hm
    rw [Bool.eq_false_iff]
    intro hsame
    rw [isReserved_congr hsame, hm] at h
    cases h
  have hsequence : Text.sameFold n sequenceTable = false := hfree _ (by decide +kernel)
  have hcatalogue : catalogueNames.any (Text.sameFold n) = false := by
    rw [List.any_eq_false]
    intro m hm
    have hreserved : ∀ m ∈ catalogueNames, isReserved m = true := by decide +kernel
    rw [hfree m (hreserved m hm)]
    simp
  rw [readable?, hsequence, hcatalogue]
  rfl

theorem isSequence_of_free {db : Database} {n : String} (h : isReserved n = false) :
    db.isSequence n = false := by
  rw [isSequence, Bool.and_eq_false_iff]
  left
  rw [Bool.eq_false_iff]
  intro hsame
  rw [isReserved_congr hsame] at h
  exact absurd h (by decide +kernel)

/-! ## Making and dropping -/

section Statements

variable {db db' : Database} {name : String}

/-- A table that is made is new and has no rows. -/
theorem createTable_ok {columns : List ColumnDef} {rules : List TableRule}
    (h : db.createTable false name columns rules = .ok db') :
    isReserved name = false ∧ db.table? name = none ∧
      repeatedName? (columns.map ColumnDef.name) = none ∧
      columns.countP (fun c => c.key.isSome) ≤ 1 ∧
      ∃ sequence,
        db' = { db with tables := db.tables ++ [⟨name, columns, rules, []⟩], sequence } := by
  rw [createTable] at h
  obtain ⟨hfree, h⟩ := of_guard h
  -- a table that must be new is refused where there is one of its name
  have habsent : db.table? name = none := by
    cases htable : db.table? name with
    | none => rfl
    | some t => simp [htable] at h
  simp only [habsent, Option.isSome_none, Bool.false_eq_true, if_false] at h
  obtain ⟨-, h⟩ := of_guard h
  split at h
  · cases h
  case h_2 hnames =>
    obtain ⟨hkeys, h⟩ := of_guard h
    split at h
    · cases h
    · cases h
      exact ⟨by simpa using hfree, habsent, hnames, by omega, _, rfl⟩

/-- A table that is absent is made, whether or not it may be there. -/
theorem createTable_of_absent (h : db.table? name = none) {ifAbsent : Bool}
    {columns : List ColumnDef} {rules : List TableRule} :
    db.createTable ifAbsent name columns rules = db.createTable false name columns rules := by
  rw [createTable, createTable, h]
  rfl

/-- A trigger that is made comes after the others, unless one of its name is there. -/
theorem createTrigger_ok {ifAbsent : Bool} {g : Trigger}
    (h : db.createTrigger ifAbsent g = .ok db') :
    (db.trigger? g.name).isSome = true ∧ db' = db ∨
      db.trigger? g.name = none ∧ ∃ t, db.table? g.table = some t ∧
        db' = { db with triggers := db.triggers ++ [{ g with table := t.name }] } := by
  obtain ⟨t, ht, h⟩ := exists_of_bind h
  obtain ⟨-, h⟩ := of_guard h
  split at h
  case isTrue hthere =>
    split at h
    · exact .inl ⟨hthere, (Except.ok.inj h).symm⟩
    · cases h
  case isFalse habsent =>
    exact .inr ⟨by simpa using habsent, t, table?_of_getTable ht, (Except.ok.inj h).symm⟩

/-- An index that is made comes after the others, unless one of its name is there. -/
theorem createIndex_ok {clock : Int} {ifAbsent : Bool} {i : Index}
    (h : db.createIndex clock ifAbsent i = .ok db') :
    (db.index? i.name).isSome = true ∧ db' = db ∨
      db.index? i.name = none ∧ ∃ t, db.table? i.table = some t ∧
        db' = { db with indexes := db.indexes ++ [{ i with table := t.name }] } := by
  obtain ⟨t, ht, h⟩ := exists_of_bind h
  obtain ⟨-, h⟩ := of_guard h
  obtain ⟨-, h⟩ := of_guard h
  dsimp only at h
  split at h
  case isTrue hthere =>
    split at h
    · exact .inl ⟨hthere, (Except.ok.inj h).symm⟩
    · cases h
  case isFalse habsent =>
    split at h
    · cases h
    · split at h
      · cases h
      · obtain ⟨-, h⟩ := of_guard h
        obtain ⟨-, h⟩ := of_guard h
        exact .inr ⟨by simpa using habsent, t, table?_of_getTable ht, (Except.ok.inj h).symm⟩

/-- Where references are not checked, a table goes with what belongs to it. -/
theorem dropTable_ok {terms : Terms} (hchecked : terms.checked = false)
    (h : db.dropTable terms false name = .ok db') : db' = db.without name := by
  rw [dropTable] at h
  split at h
  · split at h <;> cases h
  · simp only [hchecked, Bool.false_and, Bool.false_eq_true, if_false] at h
    exact (Except.ok.inj h).symm

/-- The database in which a table has another name, and so have its triggers. -/
def retitled (db : Database) (table name : String) : Database where
  tables := db.tables.map fun u =>
    { u with name := if Text.sameFold u.name table then name else u.name }
  indexes := db.indexes
  triggers := db.triggers.map fun g =>
    { g with table := if Text.sameFold g.table table then name else g.table }
  sequence := db.sequence
  version := db.version

theorem retitled_congr {table table' : String} (h : Text.sameFold table table' = true) :
    db.retitled table name = db.retitled table' name := by
  simp only [retitled, Text.sameFold_comm _ table, Text.sameFold_comm _ table',
    Text.sameFold_congr h]

/-- A table is renamed with its triggers, where no reference to it and nothing that calls it by its
name follows. -/
theorem renameTable_ok {table : String} (h : db.renameTable true false table name = .ok db') :
    isReserved name = false ∧ db.table? name = none ∧ (∃ t, db.table? table = some t) ∧
      ∃ indexes sequence, db' = { db.retitled table name with indexes, sequence } := by
  obtain ⟨t, ht, h⟩ := exists_of_bind h
  have htable := table?_of_getTable ht
  obtain ⟨hfree, h⟩ := of_guard h
  obtain ⟨habsent, h⟩ := of_guard h
  obtain ⟨-, h⟩ := of_guard h
  simp only [Bool.not_true, Bool.and_false, Bool.false_eq_true, if_false, if_true] at h
  obtain rfl := Except.ok.inj h
  rw [Bool.or_eq_true, not_or] at habsent
  rw [← retitled_congr (sameFold_of_table? htable)]
  exact ⟨by simpa using hfree, by simpa using habsent.1, ⟨t, htable⟩, _, _, rfl⟩

end Statements

/-! ## Finding tables behind a statement -/

section Finding

variable {db : Database} {t : Table}

theorem table?_congr {m n : String} (h : Text.sameFold m n = true) : db.table? m = db.table? n := by
  simp only [table?, Text.sameFold_comm _ m, Text.sameFold_comm _ n, Text.sameFold_congr h]

/-- A table that is made is found behind all others. -/
theorem table?_append (db : Database) (t : Table) (sequence : Option (List (String × Int)))
    (n : String) :
    ({ db with tables := db.tables ++ [t], sequence } : Database).table? n
      = (db.table? n).or (if Text.sameFold t.name n then some t else none) := by
  rw [table?, List.find?_append, List.find?_singleton]
  rfl

/-- Without a table all others are found as they were. -/
theorem table?_without (db : Database) (name n : String) :
    (db.without name).table? n = if Text.sameFold n name then none else db.table? n := by
  rw [table?, without, List.find?_filter]
  split
  case isTrue h =>
    refine List.find?_eq_none.mpr fun u _ => ?_
    rw [decide_eq_true_eq]
    rintro ⟨hne, hu⟩
    rw [Text.sameFold_congr hu, h] at hne
    cases hne
  case isFalse h =>
    refine List.find?_congr fun u _ => ?_
    by_cases hu : Text.sameFold u.name n = true
    · rw [Text.sameFold_congr hu, Bool.eq_false_iff.mpr h, hu]
      rfl
    · simp [hu]

variable {table name : String}

/-- A table with a new name is found by it. -/
theorem table?_retitled (htable : db.table? table = some t) (hnew : db.table? name = none) :
    (db.retitled table name).table? name = some { t with name } := by
  have hpick : db.tables.find? ((fun u => Text.sameFold u.name name) ∘ fun u =>
      { u with name := if Text.sameFold u.name table then name else u.name }) = some t := by
    rw [← htable, table?]
    refine List.find?_congr fun u hu => ?_
    have hother : Text.sameFold u.name name = false := by
      simpa using List.find?_eq_none.mp hnew u hu
    rw [Function.comp_apply]
    by_cases hold : Text.sameFold u.name table = true
    · simp [hold]
    · simp [hold, hother]
  rw [table?, retitled, List.find?_map, hpick, Option.map_some,
    if_pos (sameFold_of_table? htable)]

/-- All other tables are found as they were. -/
theorem table?_retitled_of_ne {n : String} (hold : Text.sameFold n table = false)
    (hname : Text.sameFold n name = false) :
    (db.retitled table name).table? n = db.table? n := by
  have hpick : ∀ u ∈ db.tables, ((fun u => Text.sameFold u.name n) ∘ fun u : Table =>
      { u with name := if Text.sameFold u.name table then name else u.name }) u
      = Text.sameFold u.name n := by
    intro u _
    rw [Function.comp_apply]
    by_cases hu : Text.sameFold u.name table = true
    · rw [if_pos hu, Text.sameFold_congr hu, Text.sameFold_comm table, hold, Text.sameFold_comm,
        hname]
    · rw [if_neg hu]
  rw [table?, retitled, List.find?_map, List.find?_congr hpick, table?]
  cases hfind : db.tables.find? fun u => Text.sameFold u.name n with
  | none => rfl
  | some u =>
    have hu := List.find?_some hfind
    rw [Option.map_some, Text.sameFold_congr hu, hold]
    rfl

/-- No trigger watches a name that is given up. -/
theorem triggersOn_retitled_self (h : Text.sameFold name table = false) (event : Event) :
    (db.retitled table name).triggersOn event table = [] := by
  refine List.filter_eq_nil_iff.mpr fun g hg => ?_
  obtain ⟨o, -, rfl⟩ := List.mem_map.mp (List.mem_reverse.mp hg)
  by_cases ho : Text.sameFold o.table table = true
  · simp [ho, h]
  · simp [ho]

end Finding

end Database

end Store

end AccountHistory
