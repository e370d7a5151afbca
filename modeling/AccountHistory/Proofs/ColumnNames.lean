import AccountHistory.Proofs.Definitions
import AccountHistory.Proofs.Models

/-!
# Columns and service keys

Where the columns of a model come from. They are the declared ones with blanks trimmed off their
names, and those added on request. Entries of a definition under a service key declare no column.

A service key is recognized by its name as it is written, though, and only in a definition; names
are trimmed later. So a column may bear the name of a service key after all: where blanks stand
around it in a definition, or where it is declared in a draft. `Model.reserved_column_iff` says that
these are the only ways.
-/

namespace AccountHistory

open Text

/-! ## Declared columns -/

/-- The column without the blanks around its name. -/
def Column.trimmed (c : Column) : Column :=
  { c with name := trim c.name }

namespace Draft

variable {m : Model} {d : Draft} {options : ModelExtras} {declared columns result : List Column}
  {c : Column}

/-- Columns that pass the check are declared in order, with their names trimmed. -/
theorem declare_ok (h : declare declared columns = .ok result) :
    result = declared ++ columns.map Column.trimmed := by
  induction columns generalizing declared with
  | nil => rw [List.map_nil, List.append_nil, Except.ok.inj h]
  | cons c rest ih =>
    rw [declare] at h
    obtain ⟨-, h⟩ := of_guard h
    obtain ⟨-, h⟩ := of_guard h
    rw [ih h, List.append_assoc, List.map_cons, List.singleton_append]
    rfl

theorem columns_eq (h : d.toModel options = .ok m) :
    m.columns = complete options (d.columns.map Column.trimmed) := by
  obtain ⟨⟨declared, hdeclared, hcolumns⟩, -⟩ := toModel_ok h
  rw [hcolumns, declare_ok hdeclared, List.nil_append]

/-! ## Added columns -/

/-- The names of the columns that are added on request. -/
def addedNames : List String := [generatedId, createdColumn, updatedColumn]

theorem mem_orElse_of_mem (h : c ∈ columns) (added : Column) : c ∈ orElse columns added := by
  rw [orElse]
  split
  · exact h
  · exact List.mem_append_left _ h

theorem mem_or_eq_of_mem_orElse {added : Column} (h : c ∈ orElse columns added) :
    c ∈ columns ∨ c = added := by
  rw [orElse] at h
  split at h
  · exact .inl h
  · exact (List.mem_append.mp h).imp_right List.mem_singleton.mp

/-- No declared column is lost. -/
theorem mem_complete_of_mem (h : c ∈ declared) (options : ModelExtras) :
    c ∈ complete options declared := by
  have hid : c ∈ if options.withId && !(declared.any fun d => d.name == generatedId) then
      ⟨generatedId, .idPrimaryKey⟩ :: declared else declared := by
    split
    · exact List.mem_cons_of_mem _ h
    · exact h
  rw [complete]
  split
  · exact mem_orElse_of_mem (mem_orElse_of_mem hid _) _
  · exact hid

/-- A column is a declared one, or one that was added. -/
theorem mem_of_mem_complete (h : c ∈ complete options declared) :
    c ∈ declared ∨ c.name ∈ addedNames := by
  have hid (h : c ∈ if options.withId && !(declared.any fun d => d.name == generatedId) then
      ⟨generatedId, .idPrimaryKey⟩ :: declared else declared) :
      c ∈ declared ∨ c.name ∈ addedNames := by
    split at h
    · rcases List.mem_cons.mp h with rfl | h
      · exact .inr (by simp [addedNames])
      · exact .inl h
    · exact .inl h
  rw [complete] at h
  split at h
  · rcases mem_or_eq_of_mem_orElse h with h | rfl
    · rcases mem_or_eq_of_mem_orElse h with h | rfl
      · exact hid h
      · exact .inr (by simp [addedNames])
    · exact .inr (by simp [addedNames])
  · exact hid h

/-! ## Service keys -/

/-- No column that is added has the name of a service key. -/
theorem isReservedName_of_mem_addedNames :
    ∀ name ∈ addedNames, isReservedName name = false := by
  decide

/-- A model has a column by the name of a service key just if one is declared, up to blanks. -/
theorem reserved_columnNames_iff (h : d.toModel options = .ok m) :
    (∃ name ∈ m.columnNames, isReservedName name = true) ↔
      ∃ c ∈ d.columns, isReservedName (trim c.name) = true := by
  rw [Model.columnNames, columns_eq h]
  constructor
  · rintro ⟨name, hname, hreserved⟩
    obtain ⟨c, hc, rfl⟩ := List.mem_map.mp hname
    rcases mem_of_mem_complete hc with hc | hadded
    · obtain ⟨d, hd, rfl⟩ := List.mem_map.mp hc
      exact ⟨d, hd, hreserved⟩
    · rw [isReservedName_of_mem_addedNames _ hadded] at hreserved
      cases hreserved
  · rintro ⟨c, hc, hreserved⟩
    have hmem := mem_complete_of_mem (List.mem_map_of_mem (f := Column.trimmed) hc) options
    exact ⟨trim c.name, List.mem_map.mpr ⟨c.trimmed, hmem, rfl⟩, hreserved⟩

end Draft

namespace Definition

variable {d : Definition} {options : ModelExtras} {m : Model}

/-- The columns of a definition are its entries under names that are no service keys. -/
theorem exists_mem_columnsOf_iff {entries : List (String × Declaration)} (h : IsShaped entries)
    {name : String} : (∃ c ∈ columnsOf entries, c.name = name) ↔
      ∃ e ∈ entries, e.1 = name ∧ isReservedName e.1 = false := by
  constructor
  · rintro ⟨c, hc, rfl⟩
    obtain ⟨e, he, hcolumn⟩ := List.mem_filterMap.mp hc
    split at hcolumn
    · cases hcolumn
    case isFalse hfree =>
      obtain ⟨type, -, rfl⟩ := Option.map_eq_some_iff.mp hcolumn
      exact ⟨e, he, rfl, by simpa using hfree⟩
  · rintro ⟨e, he, rfl, hfree⟩
    obtain ⟨text, type, hvalue, htype⟩ := h.columns e he hfree
    refine ⟨⟨e.1, type⟩, List.mem_filterMap.mpr ⟨e, he, ?_⟩, rfl⟩
    rw [hfree, hvalue, Declaration.type?, htype]
    rfl

end Definition

namespace Model

variable {m : Model}

/-- **Columns and service keys.** The columns of a model are the declared ones with trimmed names
and those added on request; entries of a definition under a service key declare none. A column bears
the name of a service key if and only if, in a definition, some name that is no service key becomes
one by trimming, or, in a draft, some column has such a name up to blanks. -/
theorem reserved_column_iff (options : ModelExtras) :
    (∀ d : Draft, d.toModel options = .ok m →
      m.columns = Draft.complete options (d.columns.map Column.trimmed) ∧
      ((∃ name ∈ m.columnNames, isReservedName name = true) ↔
        ∃ c ∈ d.columns, isReservedName (trim c.name) = true)) ∧
    ∀ d : Definition, d.define options = .ok m →
      m.columns
        = Draft.complete options ((Definition.columnsOf d.entries).map Column.trimmed) ∧
      ((∃ name ∈ m.columnNames, isReservedName name = true) ↔
        ∃ e ∈ d.entries, isReservedName e.1 = false ∧ isReservedName (trim e.1) = true) := by
  refine ⟨fun d h => ⟨Draft.columns_eq h, Draft.reserved_columnNames_iff h⟩, fun d h => ?_⟩
  obtain ⟨hshaped, hbuilt⟩ := Definition.define_eq_ok_iff.mp h
  have hcolumns : (Definition.built d.entries).columns = Definition.columnsOf d.entries := by
    rw [Definition.built, Draft.ofParts_eq]
  refine ⟨by rw [Draft.columns_eq hbuilt, hcolumns], ?_⟩
  rw [Draft.reserved_columnNames_iff hbuilt, hcolumns]
  constructor
  · rintro ⟨c, hc, hreserved⟩
    obtain ⟨e, he, hname, hfree⟩ :=
      (Definition.exists_mem_columnsOf_iff hshaped).mp ⟨c, hc, rfl⟩
    exact ⟨e, he, hfree, hname ▸ hreserved⟩
  · rintro ⟨e, he, hfree, hreserved⟩
    obtain ⟨c, hc, hname⟩ :=
      (Definition.exists_mem_columnsOf_iff hshaped).mpr ⟨e, he, rfl, hfree⟩
    exact ⟨c, hc, hname ▸ hreserved⟩

/-- A definition with a blank in front of a service key. -/
def blankKey : Definition := ⟨[("mts", .scalar "BIGINT"), (" __triggers__", .scalar "BIGINT")]⟩

/-- A draft that declares a column by the name of a service key. -/
def keyColumn : Draft := (Draft.empty.column "mts" .bigint).column "__triggers__" .bigint

/-- The model of both. -/
def withKeyColumn : Model :=
  ⟨[⟨"_id", .idPrimaryKey⟩, ⟨"mts", .bigint⟩, ⟨"__triggers__", .bigint⟩], [], [], [], []⟩

/-- Both give a column by the name of a service key. -/
theorem reserved_column_iff_blankKey :
    blankKey.define .standard = .ok withKeyColumn ∧
      keyColumn.toModel .standard = .ok withKeyColumn ∧
      (∃ e ∈ blankKey.entries, isReservedName e.1 = false ∧ isReservedName (trim e.1) = true) ∧
      ∃ name ∈ withKeyColumn.columnNames, isReservedName name = true := by
  have hdefine : blankKey.define .standard = .ok withKeyColumn :=
    of_toOption (by decide +kernel)
  have hdraft : keyColumn.toModel .standard = .ok withKeyColumn :=
    of_toOption (by decide +kernel)
  obtain ⟨hdrafts, hdefinitions⟩ := reserved_column_iff (m := withKeyColumn) .standard
  have hcolumn : ∃ name ∈ withKeyColumn.columnNames, isReservedName name = true :=
    (hdrafts keyColumn hdraft).2.mpr ⟨⟨"__triggers__", .bigint⟩, by decide, by decide +kernel⟩
  exact ⟨hdefine, hdraft, (hdefinitions blankKey hdefine).2.mp hcolumn, hcolumn⟩

end Model

end AccountHistory
