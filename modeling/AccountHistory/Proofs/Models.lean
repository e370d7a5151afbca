import Mathlib.Data.List.Forall2
import Mathlib.Data.List.Nodup
import AccountHistory.Proofs.Outcomes
import AccountHistory.Schema.Statement

/-!
# Models that drafts write

What a model is made of, where its draft passes all checks, and what statements make its table.
-/

namespace AccountHistory

variable {m : Model}

/-- A template keeps its text. -/
theorem Template.parse_ok {text : String} {t : Template} (h : parse text = .ok t) : t = ⟨text⟩ := by
  rw [parse] at h
  split at h
  · cases h
  · split at h
    · cases h
    · exact (Except.ok.inj h).symm

namespace Draft

theorem templates_ok {texts : List String} {ts : List Template} (h : templates texts = .ok ts) :
    ts = texts.map .mk := by
  induction texts generalizing ts with
  | nil => exact (Except.ok.inj h).symm
  | cons text rest ih =>
    rw [templates] at h
    split at h
    · cases h
    case h_2 t ht =>
      obtain rfl := Template.parse_ok ht
      obtain ⟨ts', hrest, rfl⟩ := exists_of_map h
      rw [ih hrest, List.map_cons]

/-- A column is added at the end only if its name is new. -/
theorem nodup_orElse {columns : List Column} (h : (columns.map Column.name).Nodup) (c : Column) :
    ((orElse columns c).map Column.name).Nodup := by
  rw [orElse]
  split
  case isTrue => exact h
  case isFalse hnew =>
    rw [List.map_append, List.nodup_append]
    refine ⟨h, List.nodup_singleton _, fun name hname other hother heq => hnew ?_⟩
    obtain ⟨d, hd, rfl⟩ := List.mem_map.mp hname
    rw [List.map_singleton, List.mem_singleton] at hother
    exact List.any_eq_true.mpr ⟨d, hd, by rw [heq, hother, beq_self_eq_true]⟩

theorem nodup_declare {declared columns result : List Column}
    (h : declare declared columns = .ok result) (hdeclared : (declared.map Column.name).Nodup) :
    (result.map Column.name).Nodup := by
  induction columns generalizing declared with
  | nil =>
    obtain rfl := Except.ok.inj h
    exact hdeclared
  | cons c rest ih =>
    rw [declare] at h
    obtain ⟨-, h⟩ := of_guard h
    obtain ⟨hnew, h⟩ := of_guard h
    -- the column is one that would have been added anyway
    have hadded := nodup_orElse hdeclared ⟨Text.trim c.name, c.type⟩
    rw [orElse, if_neg hnew] at hadded
    exact ih h hadded

theorem nodup_complete {declared : List Column} (h : (declared.map Column.name).Nodup)
    (options : ModelExtras) : ((complete options declared).map Column.name).Nodup := by
  have hwith : ∀ columns : List Column, (columns.map Column.name).Nodup →
      ((if options.withTimestamps then
        orElse (orElse columns ⟨createdColumn, .bigint⟩) ⟨updatedColumn, .bigint⟩
      else columns).map Column.name).Nodup := by
    intro columns hcolumns
    split
    · exact nodup_orElse (nodup_orElse hcolumns _) _
    · exact hcolumns
  rw [complete]
  refine hwith _ ?_
  split
  case isTrue hnew =>
    rw [Bool.and_eq_true, Bool.not_eq_true', List.any_eq_false] at hnew
    rw [List.map_cons, List.nodup_cons]
    refine ⟨fun hmem => ?_, h⟩
    obtain ⟨d, hd, heq⟩ := List.mem_map.mp hmem
    exact hnew.2 d hd (by rw [heq, beq_self_eq_true])
  case isFalse => exact h

/-- The parts of a model: its columns are those declared, with the ones added on request, its
constraints and triggers are those written, and its indexes are on columns of it and pass the check
of each list. -/
theorem toModel_ok {d : Draft} {options : ModelExtras} (h : d.toModel options = .ok m) :
    (∃ declared, declare [] d.columns = .ok declared ∧ m.columns = complete options declared) ∧
      m.constraints = d.constraints.map .mk ∧ m.triggers = d.triggers.map .mk ∧
      indexSpecs m.columns d.indexes = .ok m.indexes ∧
      indexSpecs m.columns d.uniqueIndexes = .ok m.uniqueIndexes ∧
      distinct m.indexes = .ok () ∧ distinct m.uniqueIndexes = .ok () := by
  obtain ⟨declared, hdeclared, h⟩ := exists_of_bind h
  obtain ⟨-, h⟩ := of_guard h
  obtain ⟨-, h⟩ := of_guard h
  obtain ⟨constraints, hconstraints, h⟩ := exists_of_bind h
  obtain ⟨triggers, htriggers, h⟩ := exists_of_bind h
  obtain ⟨indexes, hindexes, h⟩ := exists_of_bind h
  obtain ⟨uniqueIndexes, hunique, h⟩ := exists_of_bind h
  obtain ⟨⟨⟩, hdistinct, h⟩ := exists_of_bind h
  obtain ⟨⟨⟩, hdistinct', h⟩ := exists_of_bind h
  obtain rfl := Except.ok.inj h
  exact ⟨⟨declared, hdeclared, rfl⟩, templates_ok hconstraints, templates_ok htriggers, hindexes,
    hunique, hdistinct, hdistinct'⟩

/-- The columns of a model have different names. -/
theorem nodup_columnNames {d : Draft} {options : ModelExtras} (h : d.toModel options = .ok m) :
    m.columnNames.Nodup := by
  obtain ⟨⟨declared, hdeclared, hcolumns⟩, -⟩ := toModel_ok h
  rw [Model.columnNames, hcolumns]
  exact nodup_complete (nodup_declare hdeclared List.nodup_nil) options

end Draft

namespace Model

variable {table : String}

/-- Where all of several templates are filled in, the first is, and so are the others. -/
theorem renderAll_cons {t : Template} {rest : List Template} {texts : List String}
    (h : renderAll table (t :: rest) = .ok texts) : ∃ text others,
      t.renderFor table = .ok text ∧ renderAll table rest = .ok others ∧
        texts = text :: others := by
  rw [renderAll] at h
  split at h
  · cases h
  case h_2 text htext =>
    obtain ⟨others, hothers, rfl⟩ := exists_of_map h
    exact ⟨text, others, htext, hothers, rfl⟩

/-- All of several templates are filled in if each of them is, and their texts stay in order. -/
theorem renderAll_eq_ok_iff {ts : List Template} {texts : List String} :
    renderAll table ts = .ok texts ↔
      List.Forall₂ (fun t text => t.renderFor table = .ok text) ts texts := by
  induction ts generalizing texts with
  | nil =>
    rw [List.forall₂_nil_left_iff, renderAll, Except.ok.injEq, eq_comm]
  | cons t rest ih =>
    rw [List.forall₂_cons_left_iff]
    constructor
    · intro h
      obtain ⟨text, others, htext, hothers, rfl⟩ := renderAll_cons h
      exact ⟨text, others, htext, ih.mp hothers, rfl⟩
    · rintro ⟨text, others, htext, hothers, rfl⟩
      rw [renderAll, htext, ih.mpr hothers]
      rfl

/-- The texts of templates that are all filled in. -/
theorem mem_renderAll {ts : List Template} {texts : List String}
    (h : renderAll table ts = .ok texts) {text : String} :
    text ∈ texts ↔ ∃ t ∈ ts, t.renderFor table = .ok text := by
  induction ts generalizing texts with
  | nil =>
    obtain rfl := Except.ok.inj h
    simp
  | cons t rest ih =>
    obtain ⟨first, others, hfirst, hothers, rfl⟩ := renderAll_cons h
    rw [List.mem_cons, List.exists_mem_cons_iff, ih hothers, hfirst, Except.ok.injEq, eq_comm]

/-- The statements that make a table, its indexes and its triggers. -/
theorem creation_ok {statements : List Statement}
    (h : m.creation table = .ok statements) :
    ∃ constraints triggers, renderAll table m.constraints = .ok constraints ∧
      renderAll table m.triggers = .ok triggers ∧
      statements = .createTable true table m.columns constraints
        :: m.indexStatements table ++ triggers.map .authored := by
  obtain ⟨made, hmade, h⟩ := exists_of_bind h
  obtain ⟨authored, hauthored, h⟩ := exists_of_bind h
  obtain ⟨constraints, hconstraints, rfl⟩ := exists_of_map hmade
  obtain ⟨triggers, htriggers, rfl⟩ := exists_of_map hauthored
  exact ⟨constraints, triggers, hconstraints, htriggers, (Except.ok.inj h).symm⟩

/-- The statements for several models are those for each of them. -/
theorem mem_creationAll {models : List (String × Model)} {statements : List Statement}
    (h : creationAll models = .ok statements) {st : Statement} :
    st ∈ statements ↔ ∃ p ∈ models, ∃ part, p.2.creation p.1 = .ok part ∧ st ∈ part := by
  induction models generalizing statements with
  | nil =>
    obtain rfl := Except.ok.inj h
    simp
  | cons p rest ih =>
    obtain ⟨first, hfirst, h⟩ := exists_of_bind h
    obtain ⟨others, hothers, h⟩ := exists_of_bind h
    obtain rfl := Except.ok.inj h
    rw [List.mem_append, List.exists_mem_cons_iff, ih hothers, hfirst]
    simp only [Except.ok.injEq, exists_eq_left']

/-- Where the statements for several models can be made, those for each of them can. -/
theorem exists_creation {models : List (String × Model)} {statements : List Statement}
    (h : creationAll models = .ok statements) :
    ∀ p ∈ models, ∃ part, p.2.creation p.1 = .ok part := by
  induction models generalizing statements with
  | nil => simp
  | cons p rest ih =>
    obtain ⟨first, hfirst, h⟩ := exists_of_bind h
    obtain ⟨others, hothers, -⟩ := exists_of_bind h
    exact List.forall_mem_cons.mpr ⟨⟨first, hfirst⟩, ih hothers⟩

end Model

end AccountHistory
