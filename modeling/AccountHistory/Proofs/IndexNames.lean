import Mathlib.Data.List.Nodup
import AccountHistory.Proofs.Models
import AccountHistory.Proofs.RebuildPlan
import AccountHistory.Schema.Definition

/-!
# Names of indexes

The name of an index is made of its columns and of a mark: nothing, `_partial`, `_unique` or both.
A model refuses two indexes of one list that have the same columns and marks. That does not tell all
names apart, as a column may itself be called like other columns with a mark behind them:

* `Model.IsAmbiguous` says when this happens: the columns of an index without condition spell
  another index with its mark;
* `runAll_declared` says what the statements of indexes make. One whose name is taken, up to case,
  is passed over in silence, so all are made just if the names differ and are free;
* `Model.indexNames_spec` says of accepted models that the names of their indexes differ in all
  other cases, and that only indexes of one name are passed over.
-/

namespace AccountHistory

open Store Sql

/-! ## Marks -/

namespace IndexShape

variable {i j : IndexShape} {table : String} {u v : Bool} {specs : List IndexShape}

/-- What the name of an index has behind its columns. -/
def mark (spec : IndexShape) (unique : Bool) : String :=
  (if spec.isPartial then "_partial" else "") ++ (if unique then "_unique" else "")

/-- The columns of an index without condition spell another index with its mark. -/
def Spells (i j : IndexShape) (unique : Bool) : Prop :=
  i.isPartial = false ∧ i.joined = j.joined ++ j.mark unique

theorem name_inj :
    i.name table u = j.name table v ↔ i.joined ++ i.mark u = j.joined ++ j.mark v := by
  simp only [name, mark, String.append_assoc, String.append_right_inj]

/-- A text that ends in `_partial` does not end in `_unique`. -/
theorem append_partial_ne (s t : String) : s ++ "_partial" ≠ t ++ "_unique" := by
  intro h
  have hlast := congrArg (fun text => text.toList.getLast?) h
  simp [String.toList_append] at hlast

/-- Within one list, names agree where the check of the list sees it, and where one index spells
another. -/
theorem name_eq_iff_of_same : i.name table u = j.name table u ↔ i.key = j.key ∨
    (j.isPartial = true ∧ i.Spells j false) ∨ (i.isPartial = true ∧ j.Spells i false) := by
  simp only [name_inj, mark, Spells, key, Prod.mk.injEq, ← String.append_assoc,
    String.append_left_inj]
  cases hi : i.isPartial <;> cases hj : j.isPartial <;> simp [eq_comm]

/-- A plain index bears the name of a unique one where it spells it. -/
theorem name_eq_iff_of_unique :
    i.name table false = j.name table true ↔ i.Spells j true := by
  rw [name_inj, Spells]
  cases hi : i.isPartial with
  | false => simp [mark, hi]
  | true =>
    refine iff_of_false ?_ (fun h => absurd h.1 (by decide))
    have hne := append_partial_ne i.joined (j.joined ++ if j.isPartial then "_partial" else "")
    simpa [mark, hi, String.append_assoc] using hne

/-! ## The check of a list -/

theorem repeated?_eq_none {seen : List (String × Bool)} (h : repeated? seen specs = none) :
    (specs.map key).Nodup ∧ ∀ spec ∈ specs, spec.key ∉ seen := by
  induction specs generalizing seen with
  | nil => exact ⟨.nil, fun spec hspec => nomatch hspec⟩
  | cons spec rest ih =>
    rw [repeated?] at h
    split at h
    case isTrue => cases h
    case isFalse hnew =>
      obtain ⟨hnodup, hfree⟩ := ih h
      have hnew : spec.key ∉ seen := by simpa using hnew
      refine ⟨?_, ?_⟩
      · refine List.nodup_cons.mpr ⟨fun hmem => ?_, hnodup⟩
        obtain ⟨other, hother, heq⟩ := List.mem_map.mp hmem
        exact hfree other hother (heq ▸ List.mem_cons_self)
      · intro other hother
        rcases List.mem_cons.mp hother with rfl | hother
        · exact hnew
        · exact fun hseen => hfree other hother (List.mem_cons_of_mem _ hseen)

/-- In a list that passes the check, names differ unless one index spells another. -/
theorem nodup_names_iff (h : (specs.map key).Nodup) (table : String) (unique : Bool) :
    (specs.map (name · table unique)).Nodup ↔
      ¬∃ i ∈ specs, ∃ j ∈ specs, j.isPartial = true ∧ i.Spells j false := by
  rw [List.nodup_map_iff_inj_on (h.of_map _)]
  constructor
  · rintro hinj ⟨i, hi, j, hj, hpartial, hspells⟩
    have heq := hinj i hi j hj (name_eq_iff_of_same.mpr (.inr (.inl ⟨hpartial, hspells⟩)))
    exact absurd (heq ▸ hspells.1) (by rw [hpartial]; decide)
  · intro hclear i hi j hj hname
    rcases name_eq_iff_of_same.mp hname with hkey | hspells | hspells
    · exact List.inj_on_of_nodup_map h hi hj hkey
    · exact absurd ⟨i, hi, j, hj, hspells⟩ hclear
    · exact absurd ⟨j, hj, i, hi, hspells⟩ hclear

end IndexShape

/-! ## Models -/

namespace Draft

theorem distinct_ok {specs : List IndexShape} (h : distinct specs = .ok ()) :
    (specs.map IndexShape.key).Nodup := by
  rw [distinct] at h
  split at h
  · cases h
  case h_2 hnone => exact (IndexShape.repeated?_eq_none hnone).1

/-- In each list of indexes of a model no key repeats. -/
theorem toModel_nodup {m : Model} {d : Draft} {options : ModelExtras}
    (h : d.toModel options = .ok m) :
    (m.indexes.map IndexShape.key).Nodup ∧ (m.uniqueIndexes.map IndexShape.key).Nodup := by
  obtain ⟨-, -, -, -, -, hindexes, hunique⟩ := toModel_ok h
  exact ⟨distinct_ok hindexes, distinct_ok hunique⟩

end Draft

/-- A definition that is accepted writes a draft that is. -/
theorem Definition.exists_draft {d : Definition} {options : ModelExtras} {m : Model}
    (h : d.define options = .ok m) : ∃ draft : Draft, draft.toModel options = .ok m := by
  rw [define] at h
  split at h
  · cases h
  case h_2 draft _ => exact ⟨draft, h⟩

namespace Model

/-- The model passes all checks, written as a definition or as a draft. -/
def IsAccepted (m : Model) : Prop :=
  (∃ (d : Definition) (options : ModelExtras), d.define options = .ok m) ∨
    ∃ (d : Draft) (options : ModelExtras), d.toModel options = .ok m

/-- All indexes in the order of their statements, and whether they are unique. -/
def declared (m : Model) : List (Bool × IndexShape) :=
  m.indexes.map (Prod.mk false) ++ m.uniqueIndexes.map (Prod.mk true)

/-- The names of all indexes on a table. -/
def indexNames (m : Model) (table : String) : List String :=
  m.declared.map fun p => p.2.name table p.1

/-- Some index spells another one: one with a condition in the same list, or a unique one. -/
def IsAmbiguous (m : Model) : Prop :=
  (∃ i ∈ m.indexes, ∃ j ∈ m.indexes, j.isPartial = true ∧ i.Spells j false) ∨
    (∃ i ∈ m.uniqueIndexes, ∃ j ∈ m.uniqueIndexes, j.isPartial = true ∧ i.Spells j false) ∨
    ∃ i ∈ m.indexes, ∃ j ∈ m.uniqueIndexes, i.Spells j true

variable {m : Model} {table : String}

theorem IsAccepted.nodup (h : m.IsAccepted) :
    (m.indexes.map IndexShape.key).Nodup ∧ (m.uniqueIndexes.map IndexShape.key).Nodup := by
  rcases h with ⟨d, options, h⟩ | ⟨d, options, h⟩
  · obtain ⟨draft, hdraft⟩ := d.exists_draft h
    exact Draft.toModel_nodup hdraft
  · exact Draft.toModel_nodup h

theorem indexStatements_eq :
    m.indexStatements table = m.declared.map fun p => .createIndex table p.1 p.2 := by
  simp [indexStatements, declared, Function.comp_def]

/-- The names of all indexes differ unless one of them spells another. -/
theorem nodup_indexNames_iff (h : m.IsAccepted) :
    (m.indexNames table).Nodup ↔ ¬m.IsAmbiguous := by
  have hsplit : m.indexNames table = m.indexes.map (IndexShape.name · table false)
      ++ m.uniqueIndexes.map (IndexShape.name · table true) := by
    simp [indexNames, declared, Function.comp_def]
  rw [hsplit, List.nodup_append, IndexShape.nodup_names_iff h.nodup.1,
    IndexShape.nodup_names_iff h.nodup.2, IsAmbiguous, not_or, not_or]
  refine and_congr_right' (and_congr_right' ?_)
  -- a plain name is a unique one just where a plain index spells a unique one
  simp only [List.mem_map, forall_exists_index, and_imp, forall_apply_eq_imp_iff₂, ne_eq,
    IndexShape.name_eq_iff_of_unique, not_exists, not_and]

end Model

/-! ## Statements -/

/-- The statement of the index is read as what it says: the columns have plain names, and the
condition is one. -/
def IndexShape.IsReadable (spec : IndexShape) : Prop :=
  (∀ c ∈ spec.columns, isPlainName c = true) ∧
    ∀ text, spec.predicate = some text → ∃ e, Statement.conditionOf? text = some e

namespace Statement

variable {table : String} {s s' : Session}

/-- The statement of an index makes it where its name is free, up to case, and else does nothing. -/
theorem run_createIndex_cases {p : Bool × IndexShape} (htable : isPlainName table = true)
    (hp : p.2.IsReadable) (h : (createIndex table p.1 p.2).run s true = .ok s') :
    (s.database.index? (p.2.name table p.1) ≠ none ∧ s' = s) ∨
      (s.database.index? (p.2.name table p.1) = none ∧ ∃ i : Index, i.name = p.2.name table p.1 ∧
        s' = s.withDatabase { s.database with indexes := s.database.indexes ++ [i] }) := by
  obtain ⟨predicate, db, hdb, rfl⟩ := run_createIndex htable hp.1 hp.2 h
  obtain ⟨hthere, rfl⟩ | ⟨hfree, t, -, rfl⟩ := Database.createIndex_ok hdb
  · exact .inl ⟨Option.isSome_iff_ne_none.mp hthere, rfl⟩
  · exact .inr ⟨hfree, _, rfl, rfl⟩

/-- An index that is made takes its name, up to case, and no other. -/
theorem index?_concat {db : Database} {i : Index} {name : String} :
    ({ db with indexes := db.indexes ++ [i] } : Database).index? name = none ↔
      db.index? name = none ∧ Text.sameFold i.name name = false := by
  rw [Database.index?, List.find?_append, ← Database.index?, Option.or_eq_none_iff,
    List.find?_singleton]
  cases Text.sameFold i.name name <;> simp

/-- **What the statements of indexes make.** They add indexes to the database and change nothing
else; all are made just if their names differ, up to case, and none is taken before. -/
theorem runAll_declared {declared : List (Bool × IndexShape)} (htable : isPlainName table = true)
    (hread : ∀ p ∈ declared, p.2.IsReadable)
    (h : runAll s (declared.map fun p => createIndex table p.1 p.2) = .ok s') :
    ∃ made, s' = s.withDatabase { s.database with indexes := s.database.indexes ++ made } ∧
      made.length ≤ declared.length ∧
      (made.map Index.name = (declared.map fun p => p.2.name table p.1) ↔
        (declared.map fun p => p.2.name table p.1).Pairwise
            (fun a b => Text.sameFold a b = false) ∧
          ∀ n ∈ declared.map fun p => p.2.name table p.1, s.database.index? n = none) := by
  induction declared generalizing s with
  | nil =>
    obtain rfl := Except.ok.inj h
    refine ⟨[], by rw [List.append_nil]; rfl, Nat.le_refl _, iff_of_true rfl ⟨.nil, ?_⟩⟩
    exact fun n hn => nomatch hn
  | cons p rest ih =>
    obtain ⟨s₁, hfirst, hothers⟩ := runAll_cons h
    have hrest : ∀ q ∈ rest, q.2.IsReadable := fun q hq => hread q (.tail p hq)
    obtain ⟨htaken, rfl⟩ | ⟨hfree, i, hname, rfl⟩ :=
      run_createIndex_cases htable (hread p (.head rest)) hfirst
    · -- the first one is passed over, so there are fewer than were declared
      obtain ⟨made, rfl, hle, -⟩ := ih hrest hothers
      refine ⟨made, rfl, Nat.le_succ_of_le hle, iff_of_false (fun heq => ?_) fun hall => ?_⟩
      · have hlength := congrArg List.length heq
        rw [List.length_map, List.length_map, List.length_cons] at hlength
        omega
      · exact htaken (hall.2 _ List.mem_cons_self)
    · obtain ⟨made, rfl, hle, hiff⟩ := ih hrest hothers
      refine ⟨i :: made, ?_, Nat.succ_le_succ hle, ?_⟩
      · change s.withDatabase { s.database with
          indexes := s.database.indexes ++ [i] ++ made } = _
        rw [List.append_assoc, List.singleton_append]
      · rw [List.map_cons, List.map_cons, hname, List.cons_inj_right, hiff, List.pairwise_cons,
          List.forall_mem_cons]
        change _ ∧ (∀ n ∈ _, ({ s.database with
          indexes := s.database.indexes ++ [i] } : Database).index? n = none) ↔ _
        simp only [index?_concat, hname, forall_and, hfree, true_and]
        exact ⟨fun ⟨hpair, hall, hnew⟩ => ⟨⟨hnew, hpair⟩, hall⟩,
          fun ⟨⟨hnew, hpair⟩, hall⟩ => ⟨hpair, hall, hnew⟩⟩

end Statement

namespace Model

/-- **Names of indexes.** The names that an accepted model gives to all its indexes differ if and
only if none of them spells another one with its mark. Of statements on a database in which none of
the names is taken, all make their index if and only if no two names agree up to case. -/
theorem indexNames_spec {m : Model} (h : m.IsAccepted) (table : String) :
    ((m.indexNames table).Nodup ↔ ¬m.IsAmbiguous) ∧
      (isPlainName table = true → (∀ p ∈ m.declared, p.2.IsReadable) → ∀ s s' : Session,
        (∀ n ∈ m.indexNames table, s.database.index? n = none) →
        Statement.runAll s (m.indexStatements table) = .ok s' →
          ∃ made, s' = s.withDatabase { s.database with indexes := s.database.indexes ++ made } ∧
            (made.map Index.name = m.indexNames table ↔
              (m.indexNames table).Pairwise fun a b => Text.sameFold a b = false)) := by
  refine ⟨nodup_indexNames_iff h, fun htable hread s s' hfree hrun => ?_⟩
  rw [indexStatements_eq] at hrun
  obtain ⟨made, hmade, -, hiff⟩ := Statement.runAll_declared htable hread hrun
  exact ⟨made, hmade, hiff.trans (and_iff_left hfree)⟩

/-- A plain index on a column that is called like the unique index on another column. -/
def shadowed : Definition :=
  ⟨[("a", .scalar "BIGINT"), ("a_unique", .scalar "BIGINT"),
    ("__indexes__", .list ["a_unique"]), ("__uniqueIndexes__", .list ["a"])]⟩

/-- The model of it. -/
def shadowedModel : Model where
  columns := [⟨"_id", .idPrimaryKey⟩, ⟨"a", .bigint⟩, ⟨"a_unique", .bigint⟩]
  constraints := []
  triggers := []
  indexes := [⟨["a_unique"], none⟩]
  uniqueIndexes := [⟨["a"], none⟩]

/-- A session on a table of the two columns. -/
def twoColumns : Session :=
  .start ⟨[⟨"t", [⟨"a", .integer, false, none, .const .null⟩,
    ⟨"a_unique", .integer, false, none, .const .null⟩], [], []⟩], [], [], none, 0⟩ 0

/-- The statements of two indexes with one name succeed and do not make both. -/
theorem indexNames_spec_shadowed :
    shadowedModel.IsAccepted ∧ shadowedModel.indexNames "t" = ["t_a_unique", "t_a_unique"] ∧
      shadowedModel.IsAmbiguous ∧
      ∃ s' : Session,
        Statement.runAll twoColumns (shadowedModel.indexStatements "t") = .ok s' ∧
          s'.database.indexes.map Index.name ≠ shadowedModel.indexNames "t" := by
  have haccepted : shadowedModel.IsAccepted :=
    .inl ⟨shadowed, .standard, of_toOption (by decide +kernel)⟩
  have hnames : shadowedModel.indexNames "t" = ["t_a_unique", "t_a_unique"] := by decide +kernel
  obtain ⟨hnodup, hmade⟩ := indexNames_spec haccepted "t"
  have hrun : (Statement.runAll twoColumns (shadowedModel.indexStatements "t")).toOption.isSome
      = true := by
    decide +kernel
  obtain ⟨s', hs'⟩ := Option.isSome_iff_exists.mp hrun
  have hread : ∀ p ∈ shadowedModel.declared, p.2.IsReadable := by
    intro p hp
    rcases List.mem_cons.mp hp with rfl | hp
    · exact ⟨by decide +kernel, fun text htext => nomatch htext⟩
    · obtain rfl := List.mem_singleton.mp hp
      exact ⟨by decide +kernel, fun text htext => nomatch htext⟩
  obtain ⟨made, rfl, hall⟩ := hmade (by decide +kernel) hread twoColumns s' (by decide +kernel)
    (of_toOption hs')
  refine ⟨haccepted, hnames, ?_, _, of_toOption hs', ?_⟩
  · by_contra hclear
    have hdistinct := hnodup.mpr hclear
    rw [hnames] at hdistinct
    exact absurd hdistinct (by decide)
  · intro hboth
    have hdiffer := hall.mp hboth
    rw [hnames] at hdiffer
    exact absurd hdiffer (by decide +kernel)

end Model

end AccountHistory
