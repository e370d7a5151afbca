import AccountHistory.Proofs.TableNames

/-!
# Views and their tables

A hidden collection is a view: its rows are those of its source, in the table of the source, and
still it has a model of its own. The columns that it names are checked like those of any other
collection, against its own model. Nothing compares them with the table that has its rows.

* `Collection.ReadsFrom` says that the columns which a collection names are columns of a model;
* `Catalog.inTable` is a collection with the model of the table that has its rows;
* `Catalog.views_iff` says that the views of a catalog name columns of their tables if and only if
  the collections would make a catalog with these models too.
-/

namespace AccountHistory

namespace Collection

variable {c : Collection} {m : Model}

/-- The columns that the collection names are columns of the model. -/
@[mk_iff]
structure ReadsFrom (c : Collection) (m : Model) : Prop where
  /-- the times of rows -/
  date : ∀ field, c.dateField = some field → field ∈ m.columnNames
  /-- their symbols -/
  symbol : ∀ field, c.symbolField = some field → field ∈ m.columnNames
  /-- their timeframes -/
  timeframe : ∀ field, c.timeframeField = some field → field ∈ m.columnNames
  /-- the columns by which they are sorted -/
  sort : ∀ s ∈ c.sort, s.1 ∈ m.columnNames

theorem IsSound.readsFrom (h : c.IsSound) : c.ReadsFrom c.model :=
  ⟨h.date, h.symbol, h.timeframe, h.sort⟩

/-- Of a view nothing is checked but the columns that it names. -/
theorem isSound_iff_of_hidden (h : c.visibility = .hidden) : c.IsSound ↔ c.ReadsFrom c.model := by
  refine ⟨IsSound.readsFrom, fun hreads => ⟨hreads.date, hreads.symbol, hreads.timeframe,
    hreads.sort, ?_, ?_, ?_⟩⟩
  all_goals simp [h]

end Collection

namespace Catalog

variable {cs : List Collection} {c shown : Collection} {catalog : Catalog}

/-- The model of the table that has the rows of a collection, as far as there is one: that of the
source of a view, its own of any other. -/
def tableModel (cs : List Collection) (c : Collection) : Model :=
  if c.isHidden then ((c.source.bind fun s => find? s cs).map Collection.model).getD c.model
  else c.model

/-- The collection with the model of the table that has its rows. -/
def inTable (cs : List Collection) (c : Collection) : Collection :=
  { c with model := tableModel cs c }

/-- The columns that a collection names are its own, whatever its model. -/
theorem readsFrom_inTable {m : Model} : (inTable cs c).ReadsFrom m ↔ c.ReadsFrom m := by
  simp only [Collection.readsFrom_iff]
  rfl

theorem tableModel_of_hidden (hnames : (cs.map Collection.name).Nodup)
    (hhidden : c.visibility = .hidden) (hshown : shown ∈ cs)
    (hsource : c.source = some shown.name) : tableModel cs c = shown.model := by
  have hfound : find? shown.name cs = some shown := (find?_eq_some_iff hnames).mpr ⟨hshown, rfl⟩
  rw [tableModel, if_pos (Collection.isHidden_iff.mpr hhidden), hsource, Option.bind_some, hfound]
  rfl

theorem inTable_of_not_hidden (h : c.visibility ≠ .hidden) : inTable cs c = c := by
  rw [inTable, tableModel, if_neg (mt Collection.isHidden_iff.mp h)]

/-- In a lawful list, the collections with the models of their tables are lawful too, if and only if
what the views say of these models is so. -/
theorem isLawful_map_inTable_iff (h : IsLawful cs) : IsLawful (cs.map (inTable cs)) ↔
    ∀ c ∈ cs, c.visibility = .hidden → c.ReadsFrom (tableModel cs c) := by
  constructor
  · intro h' c hc hhidden
    have hsound := h'.sound (inTable cs c) (List.mem_map_of_mem hc)
    exact readsFrom_inTable.mp hsound.readsFrom
  · intro hviews
    refine ⟨?_, List.forall_mem_map.mpr fun c hc => ?_,
      List.forall_mem_map.mpr fun c hc hhidden => ?_⟩
    · rw [List.map_map]
      exact h.names
    · by_cases hhidden : c.visibility = .hidden
      · apply (Collection.isSound_iff_of_hidden (c := inTable cs c) hhidden).mpr
        exact readsFrom_inTable.mpr (hviews c hc hhidden)
      · rw [inTable_of_not_hidden hhidden]
        exact h.sound c hc
    · obtain ⟨shown, hshown, hsource, hvisible⟩ := h.sources c hc hhidden
      exact ⟨inTable cs shown, List.mem_map_of_mem hshown, hsource, hvisible⟩

/-- **Views and their tables.** In a catalog the rows of a view are in the table of a collection
that is not hidden, and the columns that the view names are columns of its own model. They are
columns of the table, for all views, if and only if the list makes a catalog too where each view has
the model of that table. -/
theorem views_iff (h : ofCollections cs = .ok catalog) :
    (∀ c ∈ cs, c.visibility = .hidden → c.ReadsFrom c.model ∧
      ∃ shown ∈ cs, c.source = some shown.name ∧ (c.table, shown.model) ∈ catalog.tables) ∧
    ((∀ c ∈ cs, c.visibility = .hidden → ∀ shown ∈ cs, c.source = some shown.name →
        c.ReadsFrom shown.model) ↔
      ∃ catalog', ofCollections (cs.map (inTable cs)) = .ok catalog') := by
  obtain ⟨hlawful, rfl⟩ := ofCollections_eq_ok_iff.mp h
  refine ⟨fun c hc hhidden => ⟨(hlawful.sound c hc).readsFrom, ?_⟩, ?_⟩
  · obtain ⟨shown, hshown, hsource, hvisible⟩ := hlawful.sources c hc hhidden
    refine ⟨shown, hshown, hsource, mem_tables.mpr ⟨shown, hshown, hvisible, ?_, rfl⟩⟩
    rw [Collection.table, hsource, Option.getD_some]
  · have hmade : (∃ catalog', ofCollections (catalog.collections.map (inTable catalog.collections))
          = .ok catalog') ↔
        IsLawful (catalog.collections.map (inTable catalog.collections)) := by
      simp only [ofCollections_eq_ok_iff]
      constructor
      · rintro ⟨-, hlawful', -⟩
        exact hlawful'
      · intro hlawful'
        exact ⟨⟨_⟩, hlawful', rfl⟩
    rw [hmade, isLawful_map_inTable_iff hlawful]
    refine forall₃_congr fun c hc hhidden =>
      ⟨fun hreads => ?_, fun hreads shown hshown hsource => ?_⟩
    · obtain ⟨shown, hshown, hsource, -⟩ := hlawful.sources c hc hhidden
      rw [tableModel_of_hidden hlawful.names hhidden hshown hsource]
      exact hreads shown hshown hsource
    · rw [← tableModel_of_hidden hlawful.names hhidden hshown hsource]
      exact hreads

/-- Ledgers, and wallets as a view of them whose rows have a time of another name. -/
def driftedWallets : List Collection :=
  let ledgers : Model :=
    ⟨[⟨"_id", .idPrimaryKey⟩, ⟨"mts", .bigint⟩, ⟨"user_id", .integerNotNull⟩], [], [], [], []⟩
  let wallets : Model := ⟨[⟨"_id", .idPrimaryKey⟩, ⟨"time", .bigint⟩], [], [], [], []⟩
  [(Collection.new "ledgers" "getLedgers" ledgers 2500).dated "mts",
    ((Collection.new "wallets" "getWallets" wallets 0).dated "time").asViewOf "ledgers"]

/-- They make a catalog, and the time of wallets is no column of the table of ledgers. -/
theorem views_iff_driftedWallets :
    ∃ catalog, ofCollections driftedWallets = .ok catalog ∧
      (∃ c ∈ driftedWallets, c.visibility = .hidden ∧ c.dateField = some "time" ∧
        c.table = "ledgers") ∧
      (∀ table ∈ catalog.tables, table.1 = "ledgers" → "time" ∉ table.2.columnNames) ∧
      ¬∃ catalog', ofCollections (driftedWallets.map (inTable driftedWallets)) = .ok catalog' := by
  have hmade : ofCollections driftedWallets = .ok ⟨driftedWallets⟩ :=
    of_toOption (by decide +kernel)
  obtain ⟨-, hviews⟩ := views_iff hmade
  refine ⟨_, hmade, ⟨_, .tail _ (.head _), rfl, rfl, rfl⟩, by decide +kernel, ?_⟩
  rw [← hviews]
  intro hreads
  have hdate := (hreads _ (.tail _ (.head _)) rfl _ (.head _) rfl).date "time" rfl
  exact absurd hdate (by decide +kernel)

end Catalog

end AccountHistory
