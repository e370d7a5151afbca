import AccountHistory.Proofs.ColumnNames
import AccountHistory.Proofs.IndexNames

/-!
# Drafts that write models

Which drafts pass the checks. The checks run in a fixed order over lists of any length, and some
depend on others: the columns that are added on request may be named by an index, and may be one
generated identifier too many; names count after trimming.

* `Template.IsWellFormed`, `IndexShape.IsOn` and `Draft.IsSound` say what the checks ask for;
* `Draft.written` is the model that a draft writes, checked or not;
* `Draft.toModel_eq_ok_iff` says that a draft becomes a model exactly when it is sound, and that the
  model is the written one.
-/

namespace AccountHistory

open Text

/-- Nothing is left of a text by trimming just if it is blank. -/
theorem Text.trim_eq_empty_iff {s : String} : trim s = "" ↔ isBlankText s = true := by
  rw [trim, String.ofList_eq_empty_iff, trimChars_eq_nil_iff, isBlankText]

/-! ## Templates -/

namespace Template

variable {text : String}

/-- The text is a template: it is not blank, and its placeholders are closed and plainly named. -/
structure IsWellFormed (text : String) : Prop where
  /-- there is something in it -/
  filled : isBlankText text = false
  /-- each opening mark is followed by a closing brace -/
  closed : (Pieces.ofChars text.toList).isClosed = true
  /-- the name between them is plain -/
  named : ∀ name ∈ (Pieces.ofChars text.toList).names, isName name = true

theorem fault?_eq_none_iff {p : Pieces} :
    fault? text p = none ↔ p.isClosed = true ∧ ∀ name ∈ p.names, isName name = true := by
  induction p with
  | last literal => simp [fault?, Pieces.isClosed, Pieces.names]
  | unclosed literal => simp [fault?, Pieces.isClosed]
  | slot literal name rest ih =>
    rw [fault?, Pieces.isClosed, Pieces.names, List.forall_mem_cons]
    by_cases hname : isName name = true
    · rw [if_pos hname, ih, and_iff_right hname]
    · rw [if_neg hname]
      exact iff_of_false nofun fun h => hname h.2.1

theorem parse_eq_ok_iff {t : Template} : parse text = .ok t ↔ IsWellFormed text ∧ t = ⟨text⟩ := by
  constructor
  · intro h
    refine ⟨?_, parse_ok h⟩
    obtain ⟨hfilled, h⟩ := of_guard h
    split at h
    · cases h
    case h_2 hnone =>
      obtain ⟨hclosed, hnamed⟩ := fault?_eq_none_iff.mp hnone
      exact ⟨Bool.eq_false_iff.mpr hfilled, hclosed, hnamed⟩
  · rintro ⟨h, rfl⟩
    rw [parse, if_neg (Bool.eq_false_iff.mp h.filled),
      fault?_eq_none_iff.mpr ⟨h.closed, h.named⟩]

end Template

/-! ## Indexes -/

namespace IndexShape

variable {items : List String} {names : List String} {spec : IndexShape} {specs : List IndexShape}

/-- The items that name columns: all but a condition at the end. -/
def columnItems (items : List String) : List String :=
  if items.getLast?.any isCondition then items.dropLast else items

/-- The index that a list of items writes, checked or not. -/
def written (items : List String) : IndexShape :=
  ⟨(columnItems items).map trim, (items.getLast?.filter isCondition).map trim⟩

/-- There are items that name columns, and each of them names one of these. -/
structure IsOn (names : List String) (items : List String) : Prop where
  /-- a column is named -/
  nonempty : columnItems items ≠ []
  /-- only columns are named -/
  known : ∀ item ∈ columnItems items, trim item ∈ names

theorem ofColumns?_eq_some_iff {columns : List String} {predicate : Option String} :
    ofColumns? columns predicate = some spec ↔
      (columns ≠ [] ∧ ∀ c ∈ columns, isBlankText c = false) ∧
        spec = ⟨columns.map trim, predicate⟩ := by
  rw [ofColumns?]
  split
  case isTrue hfault =>
    refine iff_of_false nofun fun h => ?_
    rcases Bool.or_eq_true_iff.mp hfault with hempty | hblank
    · exact h.1.1 (List.isEmpty_iff.mp hempty)
    · obtain ⟨c, hc, hblank⟩ := List.any_eq_true.mp hblank
      rw [h.1.2 c hc] at hblank
      cases hblank
  case isFalse hfault =>
    rw [Bool.or_eq_true_iff, not_or, List.isEmpty_iff, Bool.not_eq_true,
      List.any_eq_false] at hfault
    rw [and_iff_right ⟨hfault.1, fun c hc => Bool.eq_false_iff.mpr (hfault.2 c hc)⟩,
      Option.some.injEq, eq_comm]

/-- The items write an index if some of them name columns, and none of these is blank. -/
theorem ofItems?_eq_some_iff : ofItems? items = some spec ↔
    (columnItems items ≠ [] ∧ ∀ item ∈ columnItems items, isBlankText item = false) ∧
      spec = written items := by
  rw [ofItems?, columnItems, written, columnItems]
  cases hlast : items.getLast? with
  | none =>
    rw [List.getLast?_eq_none_iff.mp hlast]
    exact iff_of_false nofun fun h => h.1.1 rfl
  | some item =>
    cases hcondition : isCondition item with
    | true => simp [hcondition, Option.filter, ofColumns?_eq_some_iff]
    | false => simp [hcondition, Option.filter, ofColumns?_eq_some_iff]

theorem repeated?_eq_none_iff {seen : List (String × Bool)} : repeated? seen specs = none ↔
    (specs.map key).Nodup ∧ ∀ spec ∈ specs, spec.key ∉ seen := by
  refine ⟨repeated?_eq_none, fun h => ?_⟩
  induction specs generalizing seen with
  | nil => rfl
  | cons spec rest ih =>
    obtain ⟨hnodup, hfree⟩ := h
    obtain ⟨hnew, hnodup⟩ := List.nodup_cons.mp hnodup
    have hunseen : ¬seen.contains spec.key = true := by
      simpa using hfree spec List.mem_cons_self
    rw [repeated?, if_neg hunseen]
    refine ih ⟨hnodup, fun other hother hseen => ?_⟩
    rcases List.mem_cons.mp hseen with heq | hseen
    · exact hnew (heq ▸ List.mem_map_of_mem hother)
    · exact hfree other (List.mem_cons_of_mem _ hother) hseen

end IndexShape

namespace Draft

variable {d : Draft} {options : ModelExtras} {declared columns result : List Column}

/-! ## Lists of templates and of indexes -/

theorem templates_eq_ok_iff {texts : List String} {ts : List Template} :
    templates texts = .ok ts ↔
      (∀ text ∈ texts, Template.IsWellFormed text) ∧ ts = texts.map .mk := by
  refine ⟨fun h => ⟨?_, templates_ok h⟩, ?_⟩
  · induction texts generalizing ts with
    | nil => exact fun text htext => nomatch htext
    | cons text rest ih =>
      rw [templates] at h
      split at h
      · cases h
      case h_2 t ht =>
        obtain ⟨ts', hrest, -⟩ := exists_of_map h
        exact List.forall_mem_cons.mpr ⟨(Template.parse_eq_ok_iff.mp ht).1, ih hrest⟩
  · rintro ⟨h, rfl⟩
    induction texts with
    | nil => rfl
    | cons text rest ih =>
      obtain ⟨htext, hrest⟩ := List.forall_mem_cons.mp h
      rw [templates, Template.parse_eq_ok_iff.mpr ⟨htext, rfl⟩, ih hrest]
      rfl

/-- An index is one on the columns of the model. No column is without a name, so a blank item names
none of them. -/
theorem indexShape_eq_ok_iff {items : List String} {spec : IndexShape}
    (hnamed : "" ∉ columns.map Column.name) : indexShape columns items = .ok spec ↔
      IndexShape.IsOn (columns.map Column.name) items ∧ spec = .written items := by
  have hknown (f : String) :
      (columns.any fun c => c.name == f) = true ↔ f ∈ columns.map Column.name := by
    simp
  rw [indexShape]
  constructor
  · intro h
    split at h
    · cases h
    case h_2 spec' hspec =>
      obtain ⟨⟨hnonempty, -⟩, rfl⟩ := IndexShape.ofItems?_eq_some_iff.mp hspec
      split at h
      · cases h
      case h_2 hnone =>
        refine ⟨⟨hnonempty, fun item hitem => ?_⟩, (Except.ok.inj h).symm⟩
        have hfound := List.find?_eq_none.mp hnone (trim item) (List.mem_map_of_mem hitem)
        rw [Bool.not_eq_true', Bool.not_eq_false] at hfound
        exact (hknown _).mp hfound
  · rintro ⟨h, rfl⟩
    have hfilled : ∀ item ∈ IndexShape.columnItems items, isBlankText item = false := by
      intro item hitem
      by_contra hblank
      have hempty := Text.trim_eq_empty_iff.mpr (Bool.not_eq_false _ ▸ hblank)
      exact hnamed (hempty ▸ h.known item hitem)
    have hnone : (IndexShape.written items).columns.find?
        (fun f => !(columns.any fun c => c.name == f)) = none := by
      refine List.find?_eq_none.mpr (List.forall_mem_map.mpr fun item hitem => ?_)
      rw [(hknown _).mpr (h.known item hitem)]
      decide
    rw [IndexShape.ofItems?_eq_some_iff.mpr ⟨⟨h.nonempty, hfilled⟩, rfl⟩]
    dsimp only
    rw [hnone]

theorem indexSpecs_eq_ok_iff {lists : List (List String)} {specs : List IndexShape}
    (hnamed : "" ∉ columns.map Column.name) : indexSpecs columns lists = .ok specs ↔
      (∀ items ∈ lists, IndexShape.IsOn (columns.map Column.name) items) ∧
        specs = lists.map .written := by
  induction lists generalizing specs with
  | nil => simp [indexSpecs, eq_comm]
  | cons items rest ih =>
    rw [indexSpecs, List.forall_mem_cons, List.map_cons]
    constructor
    · intro h
      split at h
      · cases h
      case h_2 spec hspec =>
        obtain ⟨specs', hrest, rfl⟩ := exists_of_map h
        obtain ⟨hon, rfl⟩ := (indexShape_eq_ok_iff hnamed).mp hspec
        obtain ⟨hall, rfl⟩ := ih.mp hrest
        exact ⟨⟨hon, hall⟩, rfl⟩
    · rintro ⟨⟨hon, hall⟩, rfl⟩
      rw [(indexShape_eq_ok_iff hnamed).mpr ⟨hon, rfl⟩, ih.mpr ⟨hall, rfl⟩]
      rfl

theorem distinct_eq_ok_iff {specs : List IndexShape} :
    distinct specs = .ok () ↔ (specs.map IndexShape.key).Nodup := by
  refine ⟨distinct_ok, fun h => ?_⟩
  rw [distinct, IndexShape.repeated?_eq_none_iff.mpr ⟨h, fun _ _ => List.not_mem_nil⟩]

/-! ## Columns -/

/-- Columns can be declared after others if none is without a name, no two have the same one, and
the others have none of these. -/
theorem declare_eq_ok_iff : declare declared columns = .ok result ↔
    (∀ c ∈ columns, isBlankText c.name = false) ∧
      (columns.map fun c => trim c.name).Nodup ∧
      (∀ c ∈ columns, trim c.name ∉ declared.map Column.name) ∧
      result = declared ++ columns.map Column.trimmed := by
  induction columns generalizing declared with
  | nil => simp only [declare, List.map_nil, List.append_nil, List.nodup_nil, List.not_mem_nil,
      false_implies, implies_true, true_and, Except.ok.injEq, eq_comm]
  | cons c rest ih =>
    have htaken : (declared.any fun d => d.name == trim c.name) = true ↔
        trim c.name ∈ declared.map Column.name := by
      simp
    rw [declare, List.forall_mem_cons, List.forall_mem_cons, List.map_cons, List.nodup_cons,
      List.map_cons]
    constructor
    · intro h
      obtain ⟨hfilled, h⟩ := of_guard h
      obtain ⟨hnew, h⟩ := of_guard h
      obtain ⟨hrest, hnodup, hfree, rfl⟩ := ih.mp h
      rw [Text.trim_eq_empty_iff, Bool.not_eq_true] at hfilled
      rw [htaken] at hnew
      refine ⟨⟨hfilled, hrest⟩, ⟨fun hmem => ?_, hnodup⟩, ⟨hnew, fun other hother hmem => ?_⟩, ?_⟩
      · obtain ⟨other, hother, heq⟩ := List.mem_map.mp hmem
        exact hfree other hother (by simp [heq])
      · exact hfree other hother (by simp_all)
      · rw [List.append_assoc, List.singleton_append]
        rfl
    · rintro ⟨⟨hfilled, hrest⟩, ⟨hother, hnodup⟩, ⟨hnew, hfree⟩, rfl⟩
      rw [if_neg (by rw [Text.trim_eq_empty_iff, hfilled]; decide), if_neg (mt htaken.mp hnew)]
      refine ih.mpr ⟨hrest, hnodup, fun other hmem hadded => ?_, ?_⟩
      · rw [List.map_append, List.mem_append, List.map_singleton, List.mem_singleton] at hadded
        rcases hadded with hadded | heq
        · exact hfree other hmem hadded
        · exact hother (List.mem_map.mpr ⟨other, hmem, heq⟩)
      · rw [List.append_assoc, List.singleton_append]
        rfl

/-- The names of the declared columns. -/
def declaredNames (d : Draft) : List String :=
  d.columns.map fun c => trim c.name

/-- The columns of the model that a draft writes: the row identifier if it is requested and not
declared, the declared columns with trimmed names, and those of the two timestamps, if they are
requested, that are not declared. -/
def finalColumns (d : Draft) (options : ModelExtras) : List Column :=
  (if options.withId ∧ generatedId ∉ d.declaredNames then [⟨generatedId, .idPrimaryKey⟩] else [])
    ++ d.columns.map Column.trimmed
    ++ if options.withTimestamps then
        ([createdColumn, updatedColumn].filter (· ∉ d.declaredNames)).map (⟨·, .bigint⟩)
      else []

theorem orElse_eq (columns : List Column) (c : Column) :
    orElse columns c = columns ++ if c.name ∈ columns.map Column.name then [] else [c] := by
  have hany : (columns.any fun d => d.name == c.name) = true ↔
      c.name ∈ columns.map Column.name := by
    simp
  rw [orElse]
  by_cases hmem : c.name ∈ columns.map Column.name
  · rw [if_pos (hany.mpr hmem), if_pos hmem, List.append_nil]
  · rw [if_neg (mt hany.mp hmem), if_neg hmem]

/-- Of two columns that are added at the end, those are whose names are new. -/
theorem orElse_orElse (columns : List Column) {c c' : Column} (h : c'.name ≠ c.name) :
    orElse (orElse columns c) c'
      = columns ++ [c, c'].filter (·.name ∉ columns.map Column.name) := by
  have hsame : c'.name ∈ (orElse columns c).map Column.name ↔
      c'.name ∈ columns.map Column.name := by
    rw [orElse_eq]
    split <;> simp [h]
  rw [orElse_eq (orElse columns c), if_congr hsame rfl rfl, orElse_eq]
  by_cases hmem : c.name ∈ columns.map Column.name <;>
    by_cases hmem' : c'.name ∈ columns.map Column.name <;>
      simp [-List.mem_map, hmem, hmem']

/-- The requested columns stand around the declared ones. -/
theorem complete_trimmed (d : Draft) (options : ModelExtras) :
    complete options (d.columns.map Column.trimmed) = d.finalColumns options := by
  have hnames : (d.columns.map Column.trimmed).map Column.name = d.declaredNames :=
    List.map_map
  have hid : (options.withId &&
      !((d.columns.map Column.trimmed).any fun c => c.name == generatedId)) = true ↔
        options.withId ∧ generatedId ∉ d.declaredNames := by
    rw [← hnames, Bool.and_eq_true, Bool.not_eq_true', List.any_eq_false, List.mem_map, not_exists]
    simp only [beq_iff_eq, not_and]
  -- what is in front bears the name of the identifier, and no later name is that one
  have hlater (front : List Column) (hfront : ∀ c ∈ front, c.name = generatedId) :
      [⟨createdColumn, .bigint⟩, ⟨updatedColumn, .bigint⟩].filter
          (fun c : Column => c.name ∉ (front ++ d.columns.map Column.trimmed).map Column.name)
        = ([createdColumn, updatedColumn].filter (· ∉ d.declaredNames)).map (⟨·, .bigint⟩) := by
    have hother : ∀ name ∈ [createdColumn, updatedColumn], name ≠ generatedId := by decide
    change
      (List.map (fun name => Column.mk name .bigint) [createdColumn, updatedColumn]).filter _ = _
    rw [List.filter_map]
    congr 1
    refine List.filter_congr fun name hname => ?_
    have hnew : name ∉ front.map Column.name := by
      intro hmem
      obtain ⟨c, hc, rfl⟩ := List.mem_map.mp hmem
      exact hother _ hname (hfront c hc)
    rw [Function.comp_apply, List.map_append, hnames, decide_eq_decide, List.mem_append, not_or,
      and_iff_right hnew]
  rw [complete, finalColumns, if_congr hid rfl rfl, orElse_orElse _ (by decide)]
  by_cases hfront : options.withId ∧ generatedId ∉ d.declaredNames
  · have hadded := hlater [⟨generatedId, .idPrimaryKey⟩] (by simp)
    rw [if_pos hfront, if_pos hfront, ← hadded]
    cases options.withTimestamps <;> simp
  · have hadded := hlater [] (by simp)
    rw [if_neg hfront, if_neg hfront, ← hadded]
    cases options.withTimestamps <;> simp

/-- No column of a model is without a name. -/
theorem empty_notMem_finalColumns (h : ∀ c ∈ d.columns, isBlankText c.name = false)
    (options : ModelExtras) : "" ∉ (d.finalColumns options).map Column.name := by
  intro hmem
  obtain ⟨c, hc, hname⟩ := List.mem_map.mp hmem
  rw [← complete_trimmed] at hc
  rcases mem_of_mem_complete hc with hc | hadded
  · obtain ⟨declared, hdeclared, rfl⟩ := List.mem_map.mp hc
    have hblank := Text.trim_eq_empty_iff.mp hname
    rw [h declared hdeclared] at hblank
    cases hblank
  · rw [hname] at hadded
    exact absurd hadded (by decide)

/-! ## Drafts -/

/-- The model that a draft writes, checked or not. -/
def written (d : Draft) (options : ModelExtras) : Model where
  columns := d.finalColumns options
  constraints := d.constraints.map .mk
  triggers := d.triggers.map .mk
  indexes := d.indexes.map .written
  uniqueIndexes := d.uniqueIndexes.map .written

/-- What a draft must be like. -/
structure IsSound (d : Draft) (options : ModelExtras) : Prop where
  /-- every column has a name -/
  named : ∀ c ∈ d.columns, isBlankText c.name = false
  /-- no two have the same one -/
  names : d.declaredNames.Nodup
  /-- there is a column -/
  nonempty : d.columns ≠ []
  /-- at most one column, declared or added, generates row identifiers -/
  key : ((d.finalColumns options).filter fun c => c.type.isPrimaryKey).length ≤ 1
  /-- constraints are templates -/
  constraints : ∀ text ∈ d.constraints, Template.IsWellFormed text
  /-- triggers are templates -/
  triggers : ∀ text ∈ d.triggers, Template.IsWellFormed text
  /-- indexes are on columns, declared or added -/
  indexes : ∀ items ∈ d.indexes ++ d.uniqueIndexes,
    IndexShape.IsOn ((d.finalColumns options).map Column.name) items
  /-- no two plain indexes share their joined columns and whether there is a condition -/
  plainKeys : (d.indexes.map fun items => (IndexShape.written items).key).Nodup
  /-- no two unique indexes do -/
  uniqueKeys : (d.uniqueIndexes.map fun items => (IndexShape.written items).key).Nodup

/-- **Drafts that write models.** A draft becomes a model exactly when it is sound, and the model is
the written one: its columns are the declared ones with those added on request around them, and its
constraints, triggers and indexes are those of the draft, in order and in number. -/
theorem toModel_eq_ok_iff {m : Model} :
    d.toModel options = .ok m ↔ d.IsSound options ∧ m = d.written options := by
  constructor
  · intro h
    obtain ⟨declared, hdeclared, h⟩ := exists_of_bind h
    obtain ⟨hnonempty, h⟩ := of_guard h
    obtain ⟨hkey, h⟩ := of_guard h
    obtain ⟨constraints, hmade, h⟩ := exists_of_bind h
    obtain ⟨triggers, hmade', h⟩ := exists_of_bind h
    obtain ⟨indexes, hplain, h⟩ := exists_of_bind h
    obtain ⟨uniqueIndexes, hunique, h⟩ := exists_of_bind h
    obtain ⟨⟨⟩, hplainKeys, h⟩ := exists_of_bind h
    obtain ⟨⟨⟩, huniqueKeys, h⟩ := exists_of_bind h
    obtain rfl := Except.ok.inj h
    obtain ⟨hnamed, hnames, -, rfl⟩ := declare_eq_ok_iff.mp hdeclared
    rw [List.nil_append] at hnonempty hkey hplain hunique
    rw [List.nil_append]
    rw [complete_trimmed] at hkey hplain hunique ⊢
    have hall := empty_notMem_finalColumns hnamed options
    obtain ⟨hconstraints, rfl⟩ := templates_eq_ok_iff.mp hmade
    obtain ⟨htriggers, rfl⟩ := templates_eq_ok_iff.mp hmade'
    obtain ⟨hindexes, rfl⟩ := (indexSpecs_eq_ok_iff hall).mp hplain
    obtain ⟨huniqueIndexes, rfl⟩ := (indexSpecs_eq_ok_iff hall).mp hunique
    rw [distinct_eq_ok_iff, List.map_map] at hplainKeys huniqueKeys
    refine ⟨⟨hnamed, hnames, ?_, ?_, hconstraints, htriggers, ?_, hplainKeys, huniqueKeys⟩, rfl⟩
    · rintro hempty
      exact hnonempty (by rw [hempty]; rfl)
    · rw [primaryKeys, List.length_map] at hkey
      exact Nat.le_of_not_lt hkey
    · exact List.forall_mem_append.mpr ⟨hindexes, huniqueIndexes⟩
  · rintro ⟨h, rfl⟩
    have hall := empty_notMem_finalColumns h.named options
    have hdeclared : declare [] d.columns = .ok (d.columns.map Column.trimmed) :=
      declare_eq_ok_iff.mpr ⟨h.named, h.names, fun _ _ => List.not_mem_nil, rfl⟩
    have hnonempty : ¬(d.columns.map Column.trimmed).isEmpty = true := by
      rw [List.isEmpty_iff, List.map_eq_nil_iff]
      exact h.nonempty
    have hkey : ¬1 < (primaryKeys (d.finalColumns options)).length := by
      rw [primaryKeys, List.length_map]
      exact Nat.not_lt_of_le h.key
    obtain ⟨hplain, hunique⟩ := List.forall_mem_append.mp h.indexes
    have hplainKeys : distinct (d.indexes.map .written) = .ok () := by
      rw [distinct_eq_ok_iff, List.map_map]
      exact h.plainKeys
    have huniqueKeys : distinct (d.uniqueIndexes.map .written) = .ok () := by
      rw [distinct_eq_ok_iff, List.map_map]
      exact h.uniqueKeys
    rw [toModel, hdeclared]
    change (if _ then _ else _) = _
    rw [if_neg hnonempty, complete_trimmed]
    change (if _ then _ else _) = _
    rw [if_neg hkey, templates_eq_ok_iff.mpr ⟨h.constraints, rfl⟩,
      templates_eq_ok_iff.mpr ⟨h.triggers, rfl⟩, (indexSpecs_eq_ok_iff hall).mpr ⟨hplain, rfl⟩,
      (indexSpecs_eq_ok_iff hall).mpr ⟨hunique, rfl⟩]
    change (do
      distinct (d.indexes.map .written)
      distinct (d.uniqueIndexes.map .written)
      pure (d.written options)) = _
    rw [hplainKeys, huniqueKeys]
    rfl

end Draft

end AccountHistory
