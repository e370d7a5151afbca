import Mathlib.Data.List.Nodup
import AccountHistory.Proofs.Outcomes
import AccountHistory.Schema.Definition

/-!
# Definitions and drafts

A model may be written as a definition, where columns and service entries stand side by side and a
service value may be a single text or a list, or as a draft, part by part. The two agree:

* `Definition.IsShaped` says which values an entry may have, `Definition.built` is the draft with
  the columns and the service values of a definition, the latter as lists;
* a definition writes its draft if its entries are shaped, and nothing otherwise
  (`Definition.draftFrom_eq_ok_iff`);
* `Definition.define_agrees`: so a definition and its draft are accepted alike and give one model,
  however single service values are written and wherever service entries stand.
-/

namespace AccountHistory

/-! ## Drafts -/

namespace Draft

/-- The draft that is written part by part. -/
def ofParts (columns : List Column) (constraints triggers : List String)
    (indexes uniqueIndexes : List (List String)) : Draft :=
  let withColumns := columns.foldl (fun d c => d.column c.name c.type) empty
  let withConstraints := constraints.foldl constraint withColumns
  let withTriggers := triggers.foldl trigger withConstraints
  uniqueIndexes.foldl uniqueIndex (indexes.foldl index withTriggers)

/-- The parts of one draft behind those of another. -/
def append (d d' : Draft) : Draft where
  columns := d.columns ++ d'.columns
  constraints := d.constraints ++ d'.constraints
  triggers := d.triggers ++ d'.triggers
  indexes := d.indexes ++ d'.indexes
  uniqueIndexes := d.uniqueIndexes ++ d'.uniqueIndexes

variable {d : Draft}

@[simp] theorem append_empty (d : Draft) : d.append empty = d := by
  simp [append, empty]

@[simp] theorem empty_append (d : Draft) : empty.append d = d := by
  simp [append, empty]

theorem append_assoc (d d' d'' : Draft) : (d.append d').append d'' = d.append (d'.append d'') := by
  simp [append]

/-- Items that are added one after the other are added in their order. -/
theorem foldl_concat {α : Type} (part : List α → Draft) (add : Draft → α → Draft)
    (h : ∀ items item, add (part items) item = part (items ++ [item])) (items : List α) :
    items.foldl add (part []) = part items := by
  have hmore (items more : List α) : more.foldl add (part items) = part (items ++ more) := by
    induction more generalizing items with
    | nil => rw [List.append_nil]; rfl
    | cons item rest ih => rw [List.foldl_cons, h, ih, List.append_assoc, List.singleton_append]
  exact hmore [] items

/-- Written part by part, a draft has these parts. -/
theorem ofParts_eq (columns : List Column) (constraints triggers : List String)
    (indexes uniqueIndexes : List (List String)) :
    ofParts columns constraints triggers indexes uniqueIndexes
      = ⟨columns, constraints, triggers, indexes, uniqueIndexes⟩ := by
  have hcolumns := foldl_concat (⟨·, [], [], [], []⟩) (fun d c => d.column c.name c.type)
    (fun _ _ => rfl) columns
  have hconstraints := foldl_concat (⟨columns, ·, [], [], []⟩) constraint (fun _ _ => rfl) constraints
  have htriggers := foldl_concat (⟨columns, constraints, ·, [], []⟩) trigger (fun _ _ => rfl) triggers
  have hindexes := foldl_concat (⟨columns, constraints, triggers, ·, []⟩) index (fun _ _ => rfl)
    indexes
  have hunique := foldl_concat (⟨columns, constraints, triggers, indexes, ·⟩) uniqueIndex
    (fun _ _ => rfl) uniqueIndexes
  rw [ofParts, empty, hcolumns, hconstraints, htriggers, hindexes, hunique]

end Draft

/-! ## Values -/

namespace Declaration

/-- The type that a single text spells. -/
def type? : Declaration → Option SqlType
  | .scalar text => SqlType.parse? text
  | _ => none

/-- The texts of a value; a single one is a list of one. -/
def asTexts : Declaration → List String
  | .scalar text => [text]
  | .list items => items
  | .nested _ => []

/-- The indexes of a value: a single text is an index of one item, a list is one index. -/
def asIndexes : Declaration → List (List String)
  | .scalar text => [[text]]
  | .list items => [items]
  | .nested lists => lists

theorem type?_eq_some_iff {value : Declaration} {type : SqlType} : value.type? = some type ↔
    ∃ text, value = .scalar text ∧ SqlType.parse? text = some type := by
  cases value <;> simp [type?]

end Declaration

/-! ## Entries -/

namespace Definition

/-- Entries have values that suit their names. -/
structure IsShaped (entries : List (String × Declaration)) : Prop where
  /-- a column has a single text that spells a type -/
  columns : ∀ e ∈ entries, isReservedName e.1 = false →
    ∃ text type, e.2 = .scalar text ∧ SqlType.parse? text = some type
  /-- constraints and triggers do not nest -/
  texts : ∀ e ∈ entries, e.1 = constraintsName ∨ e.1 = triggersName → ∀ lists, e.2 ≠ .nested lists
  /-- several indexes are at least one -/
  indexes : ∀ e ∈ entries, e.1 = indexesName ∨ e.1 = uniqueIndexesName → e.2 ≠ .nested []

/-- The columns among entries, in order. -/
def columnsOf (entries : List (String × Declaration)) : List Column :=
  entries.filterMap fun e => if isReservedName e.1 then none else e.2.type?.map (Column.mk e.1)

/-- The values under a name. -/
def valuesOf (name : String) (entries : List (String × Declaration)) : List Declaration :=
  (entries.filter fun e => e.1 = name).map Prod.snd

/-- The draft with the columns of entries and their service values as lists. -/
def built (entries : List (String × Declaration)) : Draft :=
  .ofParts (columnsOf entries)
    ((valuesOf constraintsName entries).flatMap Declaration.asTexts)
    ((valuesOf triggersName entries).flatMap Declaration.asTexts)
    ((valuesOf indexesName entries).flatMap Declaration.asIndexes)
    ((valuesOf uniqueIndexesName entries).flatMap Declaration.asIndexes)

variable {d : Definition} {entries rest : List (String × Declaration)} {e : String × Declaration}
  {name : String} {value : Declaration} {draft draft' : Draft}

theorem isShaped_cons : IsShaped (e :: rest) ↔ IsShaped [e] ∧ IsShaped rest := by
  constructor
  · rintro ⟨hcolumns, htexts, hindexes⟩
    rw [List.forall_mem_cons] at hcolumns htexts hindexes
    exact ⟨⟨by simpa using hcolumns.1, by simpa using htexts.1, by simpa using hindexes.1⟩,
      hcolumns.2, htexts.2, hindexes.2⟩
  · rintro ⟨⟨hcolumns, htexts, hindexes⟩, ⟨hcolumns', htexts', hindexes'⟩⟩
    rw [List.forall_mem_singleton] at hcolumns htexts hindexes
    exact ⟨List.forall_mem_cons.mpr ⟨hcolumns, hcolumns'⟩,
      List.forall_mem_cons.mpr ⟨htexts, htexts'⟩, List.forall_mem_cons.mpr ⟨hindexes, hindexes'⟩⟩

theorem built_cons : built (e :: rest) = (built [e]).append (built rest) := by
  have hvalues (name : String) : valuesOf name (e :: rest) = valuesOf name [e] ++ valuesOf name rest := by
    rw [← List.singleton_append, valuesOf, List.filter_append, List.map_append]
    rfl
  have hcolumns : columnsOf (e :: rest) = columnsOf [e] ++ columnsOf rest :=
    List.filterMap_append (l := [e])
  simp only [built, Draft.ofParts_eq, Draft.append, hcolumns, hvalues, List.flatMap_append]

/-! ### Single entries -/

theorem texts_eq_ok_iff {ts : List String} : texts name value = .ok ts ↔
    (∀ lists, value ≠ .nested lists) ∧ ts = value.asTexts := by
  cases value <;> simp [texts, Declaration.asTexts, eq_comm]

theorem indexItems_eq_ok_iff {lists : List (List String)} : indexItems name value = .ok lists ↔
    value ≠ .nested [] ∧ lists = value.asIndexes := by
  rcases value with text | items | _ | ⟨items, rest⟩ <;>
    simp [indexItems, Declaration.asIndexes, eq_comm]

theorem columnType_eq_ok_iff {type : SqlType} :
    columnType name value = .ok type ↔ value.type? = some type := by
  cases value with
  | scalar text =>
    rw [columnType, Declaration.type?, SqlType.parse]
    cases SqlType.parse? text <;> simp
  | list items => simp [columnType, Declaration.type?]
  | nested lists => simp [columnType, Declaration.type?]

theorem isShaped_singleton : IsShaped [e] ↔
    (isReservedName e.1 = false → ∃ text type, e.2 = .scalar text ∧
      SqlType.parse? text = some type) ∧
    (e.1 = constraintsName ∨ e.1 = triggersName → ∀ lists, e.2 ≠ .nested lists) ∧
    (e.1 = indexesName ∨ e.1 = uniqueIndexesName → e.2 ≠ .nested []) := by
  constructor
  · rintro ⟨hcolumns, htexts, hindexes⟩
    rw [List.forall_mem_singleton] at hcolumns htexts hindexes
    exact ⟨hcolumns, htexts, hindexes⟩
  · rintro ⟨hcolumns, htexts, hindexes⟩
    exact ⟨List.forall_mem_singleton.mpr hcolumns, List.forall_mem_singleton.mpr htexts,
      List.forall_mem_singleton.mpr hindexes⟩

theorem isReservedName_iff : isReservedName name = true ↔
    name = constraintsName ∨ name = triggersName ∨ name = indexesName ∨ name = uniqueIndexesName := by
  simp [isReservedName]

/-- An entry is added where it is shaped, as the draft of it alone. -/
theorem addTo_eq_ok_iff : addTo draft name value = .ok draft' ↔
    IsShaped [(name, value)] ∧ draft' = draft.append (built [(name, value)]) := by
  rw [addTo, isShaped_singleton, built, Draft.ofParts_eq, Draft.append]
  cases hname : isReservedName name with
  | true =>
    -- the name alone decides which part of the draft grows
    rcases isReservedName_iff.mp hname with rfl | rfl | rfl | rfl <;>
      simp [map_eq_ok_iff, texts_eq_ok_iff, indexItems_eq_ok_iff, columnsOf, valuesOf,
        isReservedName, constraintsName, triggersName, indexesName, uniqueIndexesName]
  | false =>
    have hnot : ¬(name = constraintsName ∨ name = triggersName ∨ name = indexesName ∨
        name = uniqueIndexesName) := by
      rw [← isReservedName_iff, hname]
      exact Bool.false_ne_true
    obtain ⟨hconstraints, htriggers, hindexes, hunique⟩ := by simpa only [not_or] using hnot
    have hshaped : (∃ text type, value = .scalar text ∧ SqlType.parse? text = some type) ↔
        ∃ type, value.type? = some type := by
      simp only [Declaration.type?_eq_some_iff]
      exact exists_comm
    rw [if_neg hconstraints, if_neg htriggers, if_neg hindexes, if_neg hunique, map_eq_ok_iff]
    simp only [columnType_eq_ok_iff, hshaped, hconstraints, htriggers, hindexes, hunique]
    cases htype : value.type? with
    | none => simp
    | some type =>
      simp [columnsOf, valuesOf, hname, htype, hconstraints, htriggers, hindexes, hunique,
        Draft.column]

/-! ### All entries -/

/-- **Drafting.** Entries are added where all of them are shaped, as their draft. -/
theorem draftFrom_eq_ok_iff : draftFrom draft entries = .ok draft' ↔
    IsShaped entries ∧ draft' = draft.append (built entries) := by
  induction entries generalizing draft with
  | nil =>
    have hempty : draft.append (built []) = draft := by
      rw [built, Draft.ofParts_eq]
      exact draft.append_empty
    rw [hempty, draftFrom, Except.ok.injEq, eq_comm]
    exact (and_iff_right ⟨by simp, by simp, by simp⟩).symm
  | cons e rest ih =>
    obtain ⟨name, value⟩ := e
    rw [draftFrom, isShaped_cons, built_cons, ← Draft.append_assoc, and_assoc]
    cases hadd : addTo draft name value with
    | error error =>
      refine iff_of_false nofun fun h => ?_
      rw [addTo_eq_ok_iff.mpr ⟨h.1, rfl⟩] at hadd
      cases hadd
    | ok next =>
      obtain ⟨hshaped, rfl⟩ := addTo_eq_ok_iff.mp hadd
      rw [ih]
      exact (and_iff_right hshaped).symm

/-- A definition gives a model if its entries are shaped and its draft gives that model. -/
theorem define_eq_ok_iff {options : ModelExtras} {m : Model} : d.define options = .ok m ↔
    IsShaped d.entries ∧ (built d.entries).toModel options = .ok m := by
  have hdraft (draft : Draft) : d.draft = .ok draft ↔
      IsShaped d.entries ∧ draft = built d.entries := by
    rw [Definition.draft, draftFrom_eq_ok_iff, Draft.empty_append]
  rw [define]
  cases h : d.draft with
  | error error =>
    refine iff_of_false nofun fun hboth => ?_
    rw [(hdraft _).mpr ⟨hboth.1, rfl⟩] at h
    cases h
  | ok draft =>
    obtain ⟨hshaped, rfl⟩ := (hdraft draft).mp h
    exact (and_iff_right hshaped).symm

/-! ### Other ways to write -/

/-- A value that is added like another one may stand for it. -/
theorem draftFrom_congr {value' : Declaration} {before : List (String × Declaration)}
    (h : ∀ draft, addTo draft name value = addTo draft name value') :
    draftFrom draft (before ++ (name, value) :: rest)
      = draftFrom draft (before ++ (name, value') :: rest) := by
  induction before generalizing draft with
  | nil => rw [List.nil_append, List.nil_append, draftFrom, draftFrom, h]
  | cons e before ih =>
    rw [List.cons_append, List.cons_append, draftFrom, draftFrom]
    cases addTo draft e.1 e.2 with
    | error error => rfl
    | ok next => exact ih

/-- A single service value is a list of one. -/
theorem addTo_scalar (h : isReservedName name = true) (text : String) :
    addTo draft name (.scalar text) = addTo draft name (.list [text]) := by
  have htexts : texts name (.scalar text) = texts name (.list [text]) := rfl
  have hindexes : indexItems name (.scalar text) = indexItems name (.list [text]) := rfl
  rw [addTo, addTo, htexts, hindexes]
  split_ifs with hconstraints htriggers hplain hunique
  · rfl
  · rfl
  · rfl
  · rfl
  · rcases isReservedName_iff.mp h with heq | heq | heq | heq
    · exact absurd heq hconstraints
    · exact absurd heq htriggers
    · exact absurd heq hplain
    · exact absurd heq hunique

/-- A list is a single index. -/
theorem addTo_list (h : name = indexesName ∨ name = uniqueIndexesName) (items : List String) :
    addTo draft name (.list items) = addTo draft name (.nested [items]) := by
  have hindexes : indexItems name (.list items) = indexItems name (.nested [items]) := rfl
  have hconstraints : name ≠ constraintsName := by
    rcases h with rfl | rfl <;> decide
  have htriggers : name ≠ triggersName := by
    rcases h with rfl | rfl <;> decide
  rw [addTo, addTo, hindexes, if_neg hconstraints, if_neg htriggers, if_neg hconstraints,
    if_neg htriggers]
  split_ifs with hplain hunique
  · rfl
  · rfl
  · exact absurd h (not_or_intro hplain hunique)

/-- The same entries, in which service entries may stand elsewhere. -/
structure Rearranges (entries entries' : List (String × Declaration)) : Prop where
  /-- the entries are the same -/
  perm : entries.Perm entries'
  /-- the columns come in the same order -/
  columns : (entries.filter fun e => !isReservedName e.1)
    = entries'.filter fun e => !isReservedName e.1

variable {entries' : List (String × Declaration)}

/-- A name has one value at most, so its values are the same in any order of entries. -/
theorem valuesOf_congr (hnames : (entries.map Prod.fst).Nodup) (h : entries.Perm entries') :
    valuesOf name entries = valuesOf name entries' := by
  have hperm := h.filter fun e => decide (e.1 = name)
  have hnodup : ((entries.filter fun e => decide (e.1 = name)).map Prod.fst).Nodup :=
    hnames.sublist ((List.filter_sublist).map _)
  have hsame : ∀ e ∈ entries.filter fun e => decide (e.1 = name), e.1 = name := fun e he =>
    of_decide_eq_true (List.mem_filter.mp he).2
  rw [valuesOf, valuesOf]
  generalize entries.filter (fun e => decide (e.1 = name)) = found at hperm hnodup hsame ⊢
  rcases found with _ | ⟨e, _ | ⟨e', others⟩⟩
  · rw [hperm.nil_eq]
  · rw [hperm.singleton_eq]
  · -- two entries of one name are too many
    have heq : e.1 = e'.1 := (hsame e (by simp)).trans (hsame e' (by simp)).symm
    simp [heq] at hnodup

theorem columnsOf_filter (entries : List (String × Declaration)) :
    columnsOf (entries.filter fun e => !isReservedName e.1) = columnsOf entries := by
  rw [columnsOf, columnsOf, List.filterMap_filter]
  refine List.filterMap_congr fun e _ => ?_
  cases isReservedName e.1 <;> rfl

/-- Rearranged entries are shaped alike and have one draft. -/
theorem Rearranges.built_eq (h : Rearranges entries entries')
    (hnames : (entries.map Prod.fst).Nodup) : built entries = built entries' := by
  have hcolumns : columnsOf entries = columnsOf entries' := by
    rw [← columnsOf_filter entries, h.columns, columnsOf_filter]
  simp only [built, hcolumns, valuesOf_congr hnames h.perm]

theorem Rearranges.isShaped_iff (h : Rearranges entries entries') :
    IsShaped entries ↔ IsShaped entries' := by
  have hmem (e : String × Declaration) : e ∈ entries ↔ e ∈ entries' := h.perm.mem_iff
  constructor
  · rintro ⟨hcolumns, htexts, hindexes⟩
    simp only [hmem] at hcolumns htexts hindexes
    exact ⟨hcolumns, htexts, hindexes⟩
  · rintro ⟨hcolumns, htexts, hindexes⟩
    simp only [← hmem] at hcolumns htexts hindexes
    exact ⟨hcolumns, htexts, hindexes⟩

/-! ### Names -/

theorem mem_putEntry {other : String} : other ∈ (putEntry name value entries).map Prod.fst ↔
    other = name ∨ other ∈ entries.map Prod.fst := by
  induction entries with
  | nil => simp [putEntry]
  | cons e rest ih =>
    rw [putEntry]
    split
    case isTrue heq => simp [heq]
    case isFalse => rw [List.map_cons, List.mem_cons, ih, List.map_cons, List.mem_cons, or_left_comm]

theorem nodup_putEntry (h : (entries.map Prod.fst).Nodup) :
    ((putEntry name value entries).map Prod.fst).Nodup := by
  induction entries with
  | nil => exact List.nodup_singleton name
  | cons e rest ih =>
    rw [List.map_cons, List.nodup_cons] at h
    rw [putEntry]
    split
    case isTrue => exact List.nodup_cons.mpr h
    case isFalse hne =>
      refine List.nodup_cons.mpr ⟨fun hmem => ?_, ih h.2⟩
      rcases mem_putEntry.mp hmem with heq | hmem
      · exact hne heq
      · exact h.1 hmem

/-- The names of a definition are distinct, whatever entries are put into it. -/
theorem nodup_ofEntries (entries : List (String × Declaration)) :
    ((ofEntries entries).entries.map Prod.fst).Nodup := by
  have hfrom (d : Definition) (hd : (d.entries.map Prod.fst).Nodup) :
      ((entries.foldl (fun d e => d.add e.1 e.2) d).entries.map Prod.fst).Nodup := by
    induction entries generalizing d with
    | nil => exact hd
    | cons e rest ih => exact ih _ (nodup_putEntry hd)
  exact hfrom empty .nil

/-! ### Agreement -/

/-- **Definitions agree with drafts.** A definition gives a model if columns spell types, constraints
and triggers do not nest and several indexes are at least one, and if the draft written part by part,
with the same columns in order and the service values as lists, gives this model. So it is the same
to write a service value as a single one or as a list of one, and, as names are distinct
(`nodup_ofEntries`), it does not matter where service entries stand. -/
theorem define_agrees (d : Definition) (options : ModelExtras) :
    (∀ m, d.define options = .ok m ↔
      IsShaped d.entries ∧ (built d.entries).toModel options = .ok m) ∧
    (∀ before after name text, isReservedName name = true →
      define ⟨before ++ (name, .scalar text) :: after⟩ options
        = define ⟨before ++ (name, .list [text]) :: after⟩ options) ∧
    (∀ before after name items, name = indexesName ∨ name = uniqueIndexesName →
      define ⟨before ++ (name, .list items) :: after⟩ options
        = define ⟨before ++ (name, .nested [items]) :: after⟩ options) ∧
    ∀ d' : Definition, (d.entries.map Prod.fst).Nodup → Rearranges d.entries d'.entries →
      ∀ m, d.define options = .ok m ↔ d'.define options = .ok m := by
  refine ⟨fun m => define_eq_ok_iff, fun before after name text hname => ?_,
    fun before after name items hname => ?_, fun d' hnames hd' m => ?_⟩
  · rw [define, define, Definition.draft, Definition.draft,
      draftFrom_congr fun draft => addTo_scalar hname text]
  · rw [define, define, Definition.draft, Definition.draft,
      draftFrom_congr fun draft => addTo_list hname items]
  · rw [define_eq_ok_iff, define_eq_ok_iff, hd'.isShaped_iff, hd'.built_eq hnames]

/-- Trades with an index, which is written in front of the columns. -/
def trades (index : Declaration) : Definition :=
  ⟨[(indexesName, index), ("id", .scalar "BIGINT"), ("mts", .scalar "BIGINT")]⟩

/-- The same with the index behind the columns. -/
def tradesThenIndex (index : Declaration) : Definition :=
  ⟨[("id", .scalar "BIGINT"), ("mts", .scalar "BIGINT"), (indexesName, index)]⟩

/-- The model of them. -/
def tradesModel : Model where
  columns := [⟨"_id", .idPrimaryKey⟩, ⟨"id", .bigint⟩, ⟨"mts", .bigint⟩]
  constraints := []
  triggers := []
  indexes := [⟨["mts"], none⟩]
  uniqueIndexes := []

theorem define_agrees_trades :
    isReservedName indexesName = true ∧
      ((trades (.scalar "mts")).entries.map Prod.fst).Nodup ∧
      Rearranges (trades (.scalar "mts")).entries (tradesThenIndex (.scalar "mts")).entries ∧
      (trades (.scalar "mts")).define .standard = .ok tradesModel ∧
      (trades (.list ["mts"])).define .standard = .ok tradesModel ∧
      (trades (.nested [["mts"]])).define .standard = .ok tradesModel ∧
      (tradesThenIndex (.scalar "mts")).define .standard = .ok tradesModel := by
  have hname : isReservedName indexesName = true := by decide
  have hnames : ((trades (.scalar "mts")).entries.map Prod.fst).Nodup := by decide
  have hmoved : Rearranges (trades (.scalar "mts")).entries
      (tradesThenIndex (.scalar "mts")).entries :=
    ⟨by decide, by decide⟩
  have hbigint : SqlType.parse? "BIGINT" = some .bigint := by decide
  have hshaped : IsShaped (trades (.scalar "mts")).entries :=
    ⟨by simp [trades, hname, hbigint], by simp [trades], by simp [trades]⟩
  obtain ⟨hdefine, hsingle, hlist, hmove⟩ := define_agrees (trades (.scalar "mts")) .standard
  have hmodel : (trades (.scalar "mts")).define .standard = .ok tradesModel :=
    (hdefine _).mpr ⟨hshaped, of_toOption (by decide +kernel)⟩
  have hone : (trades (.scalar "mts")).define .standard = (trades (.list ["mts"])).define .standard :=
    hsingle [] _ indexesName "mts" hname
  have hindex : (trades (.list ["mts"])).define .standard
      = (trades (.nested [["mts"]])).define .standard :=
    hlist [] _ indexesName ["mts"] (.inl rfl)
  exact ⟨hname, hnames, hmoved, hmodel, hone ▸ hmodel, hindex ▸ hone ▸ hmodel,
    (hmove _ hnames hmoved _).mp hmodel⟩

end Definition

end AccountHistory
