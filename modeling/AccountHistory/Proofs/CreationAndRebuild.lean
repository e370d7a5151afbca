import Mathlib.Data.List.Perm.Basic
import AccountHistory.Proofs.IndexNames

/-!
# Making a table and rebuilding it

A model says in two places how its table is made: in the statements of a creation, and among those
of a rebuild. A table that is rebuilt must be the one that would have been made, so both have to say
the same:

* `renderAll_eq_error_iff` says when the texts of a model cannot be filled in, which is the only way
  in which the one or the other fails;
* `Model.Parallel` says what a rebuild and a creation have in common, and what a rebuild does
  besides;
* `Model.rebuild_parallel` says that of all accepted models with at least two columns.
-/

namespace AccountHistory

/-! ## Filling in the texts -/

/-- The first of templates that cannot be filled in, and why. -/
def Template.FailsFirst (table : String) (ts : List Template) (e : TemplateError) : Prop :=
  ∃ before t after, ts = before ++ t :: after ∧
    (∀ u ∈ before, ∃ text, u.renderFor table = .ok text) ∧ t.renderFor table = .error e

theorem Template.failsFirst_cons {table : String} {t : Template} {ts : List Template}
    {e : TemplateError} : FailsFirst table (t :: ts) e ↔ t.renderFor table = .error e ∨
      (∃ text, t.renderFor table = .ok text) ∧ FailsFirst table ts e := by
  simp only [FailsFirst, List.cons_eq_append_iff]
  constructor
  · rintro ⟨before, u, after, ⟨rfl, heq⟩ | ⟨before, rfl, rfl⟩, hbefore, hu⟩
    · obtain ⟨rfl, -⟩ := List.cons.inj heq
      exact .inl hu
    · obtain ⟨ht, hbefore⟩ := List.forall_mem_cons.mp hbefore
      exact .inr ⟨ht, before, u, after, rfl, hbefore, hu⟩
  · rintro (ht | ⟨ht, before, u, after, rfl, hbefore, hu⟩)
    · exact ⟨[], t, ts, .inl ⟨rfl, rfl⟩, by simp, ht⟩
    · exact ⟨t :: before, u, after, .inr ⟨before, rfl, rfl⟩,
        List.forall_mem_cons.mpr ⟨ht, hbefore⟩, hu⟩

namespace Model

variable {m : Model} {table : String} {e : TemplateError}

/-- Templates are refused because of the first that cannot be filled in. -/
theorem renderAll_eq_error_iff {ts : List Template} :
    renderAll table ts = .error e ↔ Template.FailsFirst table ts e := by
  induction ts with
  | nil => simp [renderAll, Template.FailsFirst]
  | cons t rest ih =>
    rw [Template.failsFirst_cons, ← ih, renderAll]
    cases t.renderFor table with
    | error => simp
    | ok text => cases renderAll table rest <;> simp [Except.map]

theorem renderAll_append (ts us : List Template) : renderAll table (ts ++ us) = (do
    let texts ← renderAll table ts
    let others ← renderAll table us
    return texts ++ others) := by
  induction ts with
  | nil =>
    rw [List.nil_append, renderAll]
    cases renderAll table us <;> rfl
  | cons t rest ih =>
    rw [List.cons_append, renderAll, renderAll, ih]
    cases t.renderFor table with
    | error => rfl
    | ok text =>
      cases renderAll table rest with
      | error => rfl
      | ok => cases renderAll table us <;> rfl

/-- The texts of the constraints and triggers of a table. -/
def rendered (m : Model) (table : String) : Except TemplateError (List String × List String) := do
  let constraints ← renderAll table m.constraints
  let triggers ← renderAll table m.triggers
  return (constraints, triggers)

theorem rendered_eq_ok_iff {texts : List String × List String} : m.rendered table = .ok texts ↔
    List.Forall₂ (fun t text => t.renderFor table = .ok text) m.constraints texts.1 ∧
      List.Forall₂ (fun t text => t.renderFor table = .ok text) m.triggers texts.2 := by
  obtain ⟨constraints, triggers⟩ := texts
  rw [← renderAll_eq_ok_iff, ← renderAll_eq_ok_iff, rendered]
  constructor
  · intro h
    obtain ⟨cs, hcs, h⟩ := exists_of_bind h
    obtain ⟨ts, hts, h⟩ := exists_of_bind h
    cases h
    exact ⟨hcs, hts⟩
  · rintro ⟨hcs, hts⟩
    rw [hcs, hts]
    rfl

/-- The constraints are filled in before the triggers. -/
theorem rendered_eq_error_iff : m.rendered table = .error e ↔
    Template.FailsFirst table (m.constraints ++ m.triggers) e := by
  rw [← renderAll_eq_error_iff, renderAll_append, rendered]
  cases renderAll table m.constraints with
  | error => simp [bind, Except.bind]
  | ok => cases renderAll table m.triggers <;> simp [bind, Except.bind, pure, Except.pure]

theorem creation_eq : m.creation table = (m.rendered table).map fun texts =>
    .createTable true table m.columns texts.1 :: m.indexStatements table
      ++ texts.2.map .authored := by
  rw [creation, tableStatement, triggerStatements, rendered]
  cases renderAll table m.constraints with
  | error => rfl
  | ok constraints => cases renderAll table m.triggers <;> rfl

theorem rebuildFrom_eq (h : 2 ≤ m.columns.length) (copied : List String) :
    m.rebuildFrom table copied = (m.rendered table).map fun texts =>
      [.rename table (oldName table), .createTable false table m.columns texts.1,
        .copy table (oldName table) copied, .drop false (oldName table)]
        ++ texts.2.map .authored := by
  rw [rebuildFrom, if_neg (by omega), tableStatement, triggerStatements, rendered]
  cases renderAll table m.constraints with
  | error => rfl
  | ok constraints => cases renderAll table m.triggers <;> rfl

end Model

/-! ## What both say -/

namespace Statement

/-- The statement makes something: a rebuild has others besides, which move what is there. -/
def isMaking : Statement → Bool
  | .rename .. | .copy .. | .drop .. => false
  | .createTable .. | .createIndex .. | .authored _ => true

/-- The statement with a table that need not be absent. -/
def anew : Statement → Statement
  | .createTable _ table columns constraints => .createTable false table columns constraints
  | st => st

/-- What the statement that makes a table has behind its keywords. -/
def definitionText (table : String) (columns : List Column) (constraints : List String) : String :=
  table ++ " (" ++ ", ".intercalate (columns.map columnText ++ constraints) ++ ")"

theorem text_createTable (ifAbsent : Bool) (table : String) (columns : List Column)
    (constraints : List String) : (createTable ifAbsent table columns constraints).text
      = "CREATE TABLE " ++ (if ifAbsent then "IF NOT EXISTS " else "") ++ table ++ " ("
        ++ ", ".intercalate (columns.map columnText ++ constraints) ++ ")" := rfl

/-- Whether the table may be there is said in the keywords, and nowhere else. -/
theorem text_createTable_anew (table : String) (columns : List Column)
    (constraints : List String) :
    (createTable true table columns constraints).text
        = "CREATE TABLE IF NOT EXISTS " ++ definitionText table columns constraints ∧
      (createTable false table columns constraints).text
        = "CREATE TABLE " ++ definitionText table columns constraints := by
  have hwords : "CREATE TABLE IF NOT EXISTS " = "CREATE TABLE " ++ "IF NOT EXISTS " := by
    decide +kernel
  constructor
  · rw [text_createTable, definitionText, if_pos rfl, hwords]
    simp only [String.append_assoc]
  · rw [text_createTable, definitionText]
    simp only [Bool.false_eq_true, if_false, String.append_empty, String.append_assoc]

end Statement

namespace Model

/-- The statements of a rebuild and those of a creation make the same table. -/
structure Parallel (m : Model) (table : String) (plan created : List Statement) : Prop where
  /-- what the rebuild makes, with the indexes that follow, is what the creation makes, each once;
  only the table is made without regard to one that is there -/
  same : (plan.filter Statement.isMaking ++ m.indexStatements table).Perm
    (created.map Statement.anew)
  /-- that is left out of the text of the first statement, and of no other -/
  unguarded : ∃ definition others,
    created.map Statement.text = ("CREATE TABLE IF NOT EXISTS " ++ definition) :: others ∧
    (created.map Statement.anew).map Statement.text = ("CREATE TABLE " ++ definition) :: others
  /-- a rebuild has four statements for the table and one for each trigger -/
  length : plan.length = 4 + m.triggers.length
  /-- the old table is set aside before the new one is made, the rows are copied then, and the old
  table goes at last -/
  order : ∃ made, created.head? = some made ∧ plan.take 4
    = [.rename table (oldName table), made.anew, .copy table (oldName table) m.columnNames,
      .drop false (oldName table)]
  /-- the triggers follow in their order -/
  triggers : List.Forall₂ (fun t st => t.renderFor table = .ok st.text) m.triggers (plan.drop 4)
  /-- no column is copied twice -/
  columns : m.columnNames.Nodup
  /-- and each is copied into the column of its name -/
  copied : ∃ names, names = ", ".intercalate m.columnNames ∧
    (plan.map Statement.text)[2]? = some ("INSERT INTO " ++ table ++ " (" ++ names ++ ") SELECT "
      ++ names ++ " FROM " ++ oldName table)

variable {m : Model} {table : String}

theorem IsAccepted.nodup_columnNames (h : m.IsAccepted) : m.columnNames.Nodup := by
  rcases h with ⟨d, options, h⟩ | ⟨d, options, h⟩
  · obtain ⟨draft, hdraft⟩ := d.exists_draft h
    exact Draft.nodup_columnNames hdraft
  · exact Draft.nodup_columnNames h

/-- Where the texts are filled in, both are made of them. -/
theorem parallel_of_rendered (hm : m.columnNames.Nodup) {constraints triggers : List String}
    (h : m.rendered table = .ok (constraints, triggers)) :
    m.Parallel table
      ([.rename table (oldName table), .createTable false table m.columns constraints,
        .copy table (oldName table) m.columnNames, .drop false (oldName table)]
        ++ triggers.map .authored)
      (.createTable true table m.columns constraints :: m.indexStatements table
        ++ triggers.map .authored) := by
  obtain ⟨-, htriggers⟩ := rendered_eq_ok_iff.mp h
  -- only the table is made under a condition
  have hanew : (m.indexStatements table ++ triggers.map Statement.authored).map Statement.anew
      = m.indexStatements table ++ triggers.map .authored := by
    simp [indexStatements, Statement.anew, Function.comp_def]
  have hmaking : (triggers.map Statement.authored).filter Statement.isMaking
      = triggers.map .authored := by
    simp [List.filter_map, Function.comp_def, Statement.isMaking]
  constructor
  case same =>
    rw [List.filter_append, hmaking, List.cons_append, List.map_cons, hanew]
    exact List.perm_append_comm.cons _
  case unguarded =>
    obtain ⟨hguarded, hfree⟩ := Statement.text_createTable_anew table m.columns constraints
    rw [List.cons_append, List.map_cons, List.map_cons, hanew, List.map_cons]
    exact ⟨_, _, by rw [hguarded], by rw [Statement.anew, hfree]⟩
  case length =>
    rw [List.length_append, List.length_map, ← htriggers.length_eq]
    rfl
  case order => exact ⟨_, rfl, rfl⟩
  case triggers =>
    change List.Forall₂ _ m.triggers (triggers.map Statement.authored)
    rw [List.forall₂_map_right_iff]
    exact htriggers
  case columns => exact hm
  case copied => exact ⟨_, rfl, rfl⟩

/-- **A table that is rebuilt is the one that would be made.** Of an accepted model with at least
two columns, the statements of a rebuild and those of a creation are made alike or not at all, and
then for the same reason: the first constraint or trigger that cannot be filled in. Which columns
are copied makes no difference beyond the copy. A model of fewer columns is not rebuilt, whatever
its constraints and triggers are. -/
theorem rebuild_parallel (h : m.IsAccepted) (table : String) :
    (m.columns.length < 2 → ∀ copied, m.rebuildFrom table copied = .ok []) ∧
    (2 ≤ m.columns.length →
      (match m.creation table, m.rebuild table with
        | .error e, .error e' => e = e' ∧ Template.FailsFirst table (m.constraints ++ m.triggers) e
        | .ok created, .ok plan => m.Parallel table plan created
        | _, _ => False) ∧
      ∀ copied, m.rebuildFrom table copied
        = (m.rebuild table).map fun plan => plan.set 2 (.copy table (oldName table) copied)) := by
  refine ⟨fun hshort copied => by rw [rebuildFrom, if_pos hshort], fun hlong => ?_⟩
  rw [rebuild, rebuildFrom_eq hlong, creation_eq]
  cases hrendered : m.rendered table with
  | error e =>
    refine ⟨⟨rfl, rendered_eq_error_iff.mp hrendered⟩, fun copied => ?_⟩
    rw [rebuildFrom_eq hlong, hrendered]
    rfl
  | ok texts =>
    refine ⟨parallel_of_rendered h.nodup_columnNames hrendered, fun copied => ?_⟩
    rw [rebuildFrom_eq hlong, hrendered]
    rfl

/-- Quotes of a pair and a moment, each once, which clear a log and count themselves. -/
def quotes : Model where
  columns := [⟨"_id", .idPrimaryKey⟩, ⟨"mts", .bigint⟩, ⟨"pair", .varchar⟩]
  constraints := [⟨"UNIQUE (mts, pair)"⟩]
  triggers :=
    [⟨"CREATE TRIGGER cleared AFTER INSERT ON #\x7btableName\x7d BEGIN DELETE FROM log; END"⟩,
      ⟨"CREATE TRIGGER counted AFTER INSERT ON #\x7btableName\x7d BEGIN UPDATE n SET x = 1; END"⟩]
  indexes := [⟨["mts"], none⟩]
  uniqueIndexes := [⟨["pair", "mts"], some "WHERE mts > 0"⟩]

/-- The draft of it. -/
def quotesDraft : Draft where
  columns := [⟨"mts", .bigint⟩, ⟨"pair", .varchar⟩]
  constraints := quotes.constraints.map Template.text
  triggers := quotes.triggers.map Template.text
  indexes := [["mts"]]
  uniqueIndexes := [["pair", "mts", "WHERE mts > 0"]]

/-- Six statements rebuild the table, and the two indexes follow. -/
theorem rebuild_parallel_quotes : quotes.IsAccepted ∧ 2 ≤ quotes.columns.length ∧
    ∃ created plan, quotes.creation "t" = .ok created ∧ quotes.rebuild "t" = .ok plan ∧
      quotes.Parallel "t" plan created ∧ plan.length = 6 := by
  have haccepted : quotes.IsAccepted :=
    .inr ⟨quotesDraft, .standard, of_toOption (by decide +kernel)⟩
  have hlong : 2 ≤ quotes.columns.length := by decide
  obtain ⟨created, hcreated⟩ := Option.isSome_iff_exists.mp
    (show (quotes.creation "t").toOption.isSome = true by decide +kernel)
  obtain ⟨plan, hplan⟩ := Option.isSome_iff_exists.mp
    (show (quotes.rebuild "t").toOption.isSome = true by decide +kernel)
  obtain ⟨hparallel, -⟩ := (rebuild_parallel haccepted "t").2 hlong
  rw [of_toOption hcreated, of_toOption hplan] at hparallel
  exact ⟨haccepted, hlong, created, plan, of_toOption hcreated, of_toOption hplan, hparallel,
    hparallel.length⟩

end Model

end AccountHistory
