import AccountHistory.Proofs.Emptying

/-!
# Existing tables

Which tables are listed as those of the user. The store keeps the names for itself that begin with
its six letters and a low line. In the pattern of these names, however, the low line stands for any
one character, so that tables are overlooked whose names begin with the letters and go on with
another one. What is built on the list overlooks them too: a database that has no other tables is
taken for empty, and they stay where all tables are dropped.

* `Database.userTables` are the tables of the user as the catalogue has them;
* `Database.IsOverlooked` says that a name is mistaken for one of the store;
* `Blueprint.userTables_overlooked` says that these are the only differences.
-/

namespace AccountHistory

open Store Sql

namespace Store.Database

variable {db : Database} {m n name : String}

/-! ## Names of the store -/

/-- The name begins like those of the store, in any case, and goes on with another character than
the mark. -/
def IsOverlooked (name : String) : Prop :=
  ∃ c rest, name.toList.map Text.small = storeLetters ++ c :: rest ∧ c ≠ '_'

theorem isReserved_iff : isReserved name = true ↔
    ∃ rest, name.toList.map Text.small = storeLetters ++ '_' :: rest := by
  rw [isReserved, List.isPrefixOf_iff_prefix]
  constructor
  · rintro ⟨rest, h⟩
    exact ⟨rest, h.symm⟩
  · rintro ⟨rest, h⟩
    exact ⟨rest, h.symm⟩

theorem isOverlooked_congr (h : Text.sameFold m n = true) : IsOverlooked m ↔ IsOverlooked n := by
  rw [IsOverlooked, IsOverlooked, Text.map_small_of_sameFold h]

/-- The names that match the pattern of internal names are those of the store and those mistaken for
them. -/
theorem isLike_internalPattern_eq_true_iff : Text.isLike internalPattern name.toList = true ↔
    isReserved name = true ∨ IsOverlooked name := by
  rw [isLike_internalPattern_iff, isReserved_iff]
  constructor
  · rintro ⟨c, rest, hname⟩
    by_cases hc : c = '_'
    · subst hc
      exact .inl ⟨rest, hname⟩
    · exact .inr ⟨c, rest, hname, hc⟩
  · rintro (⟨rest, hname⟩ | ⟨c, rest, hname, -⟩)
    · exact ⟨'_', rest, hname⟩
    · exact ⟨c, rest, hname⟩

/-! ## Tables of the user -/

/-- The names of the tables in the catalogue that the store does not keep for itself. -/
def userTables (db : Database) : List String :=
  (db.objectsInOrder.filter fun e => e.kind == "table" && !isReserved e.name).map
    CatalogueEntry.name

/-- The tables in the catalogue are those of the database, and the identifiers given out. -/
theorem name_of_mem_objectsInOrder {e : CatalogueEntry} (h : e ∈ db.objectsInOrder)
    (hkind : e.kind = "table") : e.name = sequenceTable ∨ ∃ t ∈ db.tables, t.name = e.name := by
  rcases List.mem_append.mp h with h | h
  · split at h
    · rw [List.mem_singleton.mp h]
      exact .inl rfl
    · cases h
  · obtain ⟨t, ht, h⟩ := List.mem_flatMap.mp h
    simp only [objectsOf, List.mem_append, List.mem_singleton, List.mem_mapIdx, List.mem_map,
      List.mem_ite_nil_right] at h
    rcases h with (((rfl | ⟨_, _, rfl⟩) | ⟨-, rfl⟩) | ⟨_, -, rfl⟩) | ⟨_, -, rfl⟩
    · exact .inr ⟨t, ht, rfl⟩
    · simp at hkind
    · exact .inl rfl
    · simp at hkind
    · simp at hkind

theorem mem_objectsInOrder {t : Table} (ht : t ∈ db.tables) :
    ⟨"table", t.name, t.name⟩ ∈ db.objectsInOrder := by
  refine List.mem_append_right _ (List.mem_flatMap.mpr ⟨t, ht, ?_⟩)
  simp [objectsOf]

theorem mem_userTables : name ∈ db.userTables ↔
    (∃ t ∈ db.tables, t.name = name) ∧ isReserved name = false := by
  constructor
  · intro h
    obtain ⟨e, he, rfl⟩ := List.mem_map.mp h
    obtain ⟨he, hlisted⟩ := List.mem_filter.mp he
    simp only [Bool.and_eq_true, beq_iff_eq, Bool.not_eq_true'] at hlisted
    obtain ⟨hkind, hfree⟩ := hlisted
    obtain hsequence | ht := name_of_mem_objectsInOrder he hkind
    · rw [hsequence] at hfree
      exact absurd hfree (by decide +kernel)
    · exact ⟨ht, hfree⟩
  · rintro ⟨⟨t, ht, rfl⟩, hfree⟩
    refine List.mem_map.mpr ⟨_, List.mem_filter.mpr ⟨mem_objectsInOrder ht, ?_⟩, rfl⟩
    simp [hfree]

/-- The tables that are listed are those of the user which are not overlooked. -/
theorem mem_sortedTables_iff :
    name ∈ db.sortedTables ↔ name ∈ db.userTables ∧ ¬IsOverlooked name := by
  rw [mem_sortedTables, mem_userTables, ← Bool.not_eq_true, isLike_internalPattern_eq_true_iff,
    not_or, Bool.not_eq_true]
  simp only [← and_assoc, exists_and_right]

/-- No table is listed exactly where all tables of the user are overlooked. -/
theorem sortedTables_eq_nil_iff :
    db.sortedTables = [] ↔ ∀ name ∈ db.userTables, IsOverlooked name := by
  simp only [List.eq_nil_iff_forall_not_mem, mem_sortedTables_iff, not_and, not_not]

/-- The list holds exactly the tables of the user where none of them is overlooked. -/
theorem forall_mem_sortedTables_iff :
    (∀ name, name ∈ db.sortedTables ↔ name ∈ db.userTables) ↔
      ∀ name ∈ db.userTables, ¬IsOverlooked name := by
  simp only [mem_sortedTables_iff, and_iff_left_iff_imp]

/-- Dropping the listed tables leaves those that are overlooked. -/
theorem mem_userTables_of_dropTables {db' : Database} {terms : Terms} {ifPresent : Bool}
    (hchecked : terms.checked = false)
    (h : db.dropTables terms ifPresent db.sortedTables = .ok db') :
    name ∈ db'.userTables ↔ name ∈ db.userTables ∧ IsOverlooked name := by
  rw [mem_userTables, mem_userTables, tables_of_dropTables hchecked h]
  constructor
  · rintro ⟨⟨t, ht, rfl⟩, hfree⟩
    obtain ⟨ht, hkept⟩ := List.mem_filter.mp ht
    refine ⟨⟨⟨t, ht, rfl⟩, hfree⟩, ?_⟩
    by_contra hseen
    have hlisted : t.name ∈ db.sortedTables :=
      mem_sortedTables_iff.mpr ⟨mem_userTables.mpr ⟨⟨t, ht, rfl⟩, hfree⟩, hseen⟩
    have hdropped : db.sortedTables.any (Text.sameFold t.name) = true :=
      List.any_eq_true.mpr ⟨t.name, hlisted, Text.sameFold_self _⟩
    simp [hdropped] at hkept
  · rintro ⟨⟨⟨t, ht, rfl⟩, hfree⟩, hoverlooked⟩
    refine ⟨⟨t, List.mem_filter.mpr ⟨ht, ?_⟩, rfl⟩, hfree⟩
    -- a listed table of the same name, up to case, would be overlooked as well
    have hnone : ∀ n ∈ db.sortedTables, Text.sameFold t.name n = false := by
      intro n hn
      rw [← Bool.not_eq_true]
      intro hsame
      exact (mem_sortedTables_iff.mp hn).2 ((isOverlooked_congr hsame).mp hoverlooked)
    simpa using hnone

end Store.Database

namespace Blueprint

variable {s : Session}

/-- A run that succeeds reports that the database was empty if it had version zero and no table was
listed. -/
theorem created_iff {effect : Effect} {b : Blueprint} {directory : Option MigrationDirectory}
    {s' : Session} {summary : MigrationSummary}
    (h : b.migrateBy effect directory s = (s', .ok summary)) :
    summary.created = true ↔ IsFresh s.database := by
  have houtcome := migrateBy_outcome effect b directory s
  rw [h] at houtcome
  cases houtcome with
  | settled heq hdue => simpa using fun hfresh => hdue (.inl hfresh)
  | completed => exact decide_eq_true_iff

theorem mem_userTables_of_dropAllTables {ifPresent : Bool} {s' : Session} {count : Nat}
    {name : String} (hwords : ∀ n ∈ s.database.sortedTables, IsWord n)
    (h : dropAllTables ifPresent s = (s', .ok count)) :
    name ∈ s'.database.userTables ↔
      name ∈ s.database.userTables ∧ Database.IsOverlooked name := by
  rw [dropAllTables_eq] at h
  cases hrun : Statement.runAll { s with foreignKeys := false }
      (dropStatements ifPresent s.database.sortedTables) with
  | error e =>
    rw [hrun] at h
    cases h
  | ok s₁ =>
    rw [hrun] at h
    obtain ⟨rfl, -⟩ := Prod.mk.inj h
    obtain ⟨db, rfl, hdb⟩ :=
      dropTables_of_runAll (s := { s with foreignKeys := false }) hwords rfl hrun
    -- the version that is written is not among the tables
    change name ∈ db.userTables ↔ _
    exact Database.mem_userTables_of_dropTables rfl hdb

/-- **Existing tables.** The listed tables are those of the user, but for the overlooked ones, so all
of them are listed if and only if none is overlooked. A database is taken for empty, and its tables
made at once, if and only if it has version zero and all tables of the user are overlooked. Where the
names of the listed tables are words, dropping all tables leaves the overlooked ones, if it
succeeds. -/
theorem userTables_overlooked (s : Session) :
    (∀ name, name ∈ s.database.sortedTables ↔
      name ∈ s.database.userTables ∧ ¬Database.IsOverlooked name) ∧
    ((∀ name, name ∈ s.database.sortedTables ↔ name ∈ s.database.userTables) ↔
      ∀ name ∈ s.database.userTables, ¬Database.IsOverlooked name) ∧
    (∀ effect b directory s' summary, migrateBy effect b directory s = (s', .ok summary) →
      (summary.created = true ↔ s.database.storedVersion = 0 ∧
        ∀ name ∈ s.database.userTables, Database.IsOverlooked name)) ∧
    ((∀ n ∈ s.database.sortedTables, IsWord n) →
      ∀ ifPresent s' count, dropAllTables ifPresent s = (s', .ok count) →
        (∀ name, name ∈ s'.database.userTables ↔
          name ∈ s.database.userTables ∧ Database.IsOverlooked name) ∧
        (s'.database.userTables = [] ↔
          ∀ name ∈ s.database.userTables, ¬Database.IsOverlooked name)) := by
  refine ⟨fun name => Database.mem_sortedTables_iff, Database.forall_mem_sortedTables_iff,
    ?_, ?_⟩
  · intro effect b directory s' summary hrun
    rw [created_iff hrun, IsFresh, Database.sortedTables_eq_nil_iff]
  · intro hwords ifPresent s' count hdropped
    have hleft : ∀ name, name ∈ s'.database.userTables ↔
        name ∈ s.database.userTables ∧ Database.IsOverlooked name :=
      fun name => mem_userTables_of_dropAllTables hwords hdropped
    refine ⟨hleft, ?_⟩
    simp only [List.eq_nil_iff_forall_not_mem, hleft, not_and]

/-- Two tables of version zero, of which one is overlooked. -/
def partlySeen : Database := ⟨[⟨"sqlitex", [], [], []⟩, ⟨"t", [], [], []⟩], [], [], none, 0⟩

/-- The overlooked one alone. -/
def unseen : Database := ⟨[⟨"sqlitex", [], [], []⟩], [], [], none, 0⟩

/-- A table whose name is no word: as a part of a statement it ends there. -/
def twoStatements : Database := ⟨[⟨"a;", [], [], []⟩], [], [], none, 0⟩

/-- Dropping both tables leaves the overlooked one, a run on which takes the database for empty. A
table whose name is no word is listed, and may stay all the same. -/
theorem userTables_overlooked_sqlitex :
    partlySeen.userTables = ["sqlitex", "t"] ∧
      dropAllTables false (.start partlySeen 0) = (.start unseen 0, .ok 1) ∧
      unseen.userTables ≠ [] ∧
      (∀ effect b directory s' summary,
        migrateBy effect b directory (.start unseen 0) = (s', .ok summary) →
          summary.created = true) ∧
      (migrate ⟨[], 1⟩ none (.start unseen 0)).2 = .ok ⟨0, 1, true, []⟩ ∧
      dropAllTables true (.start twoStatements 0) = (.start twoStatements 0, .ok 1) := by
  have hdropped : dropAllTables false (.start partlySeen 0) = (.start unseen 0, .ok 1) := by
    decide +kernel
  have hwords : ∀ n ∈ partlySeen.sortedTables, IsWord n := by
    have hplain : ∀ n ∈ partlySeen.sortedTables, isPlainName n = true := by decide +kernel
    exact fun n hn => isWord_of_isPlainName (hplain n hn)
  obtain ⟨hleft, hall⟩ :=
    (userTables_overlooked (.start partlySeen 0)).2.2.2 hwords false (.start unseen 0) 1 hdropped
  have hoverlooked : Database.IsOverlooked "sqlitex" := ⟨'x', [], by decide, by decide⟩
  refine ⟨by decide +kernel, hdropped, ?_, ?_, by decide +kernel, by decide +kernel⟩
  · intro hnone
    exact hall.mp hnone "sqlitex" (by decide +kernel) hoverlooked
  · intro effect b directory s' summary hrun
    refine ((userTables_overlooked (.start unseen 0)).2.2.1 effect b directory s' summary
      hrun).mpr ⟨rfl, fun name hname => ?_⟩
    exact ((hleft name).mp hname).2

end Blueprint

end AccountHistory
