import AccountHistory.Proofs.Catalogs

/-!
# The tables of collections

A collection that is hidden has its rows in the table of another one; every other collection has a
table of its own name. Whether a collection is hidden and which source it names are two things,
though, and a collection that is shared after it has been hidden still names its source: it is
fetched like any other, and its rows go to a table that is not its own and that need not be there.

* `Catalog.NamesTables` says that every collection of a catalog has its rows where they should be;
* `Collection.Call` is one of the calls by which a collection is put together, and
  `Recipe.Unhides` says of a sequence of them that it leaves a source behind;
* `Catalog.namesTables_iff` says that a catalog names its tables unless some collection has been
  put together that way.
-/

namespace AccountHistory

/-! ## Putting collections together -/

namespace Collection

/-- One thing said about a collection. -/
inductive Call where
  /-- which column has the times -/
  | dated (field : String)
  /-- which column has the symbols -/
  | bySymbol (field : String)
  /-- which column has the timeframes -/
  | byTimeframe (field : String)
  /-- how rows are sorted -/
  | sortedBy (sort : List (String × SortDirection))
  /-- all users share the rows -/
  | forAll
  /-- the rows are those of another collection -/
  | asViewOf (source : String)
  /-- rows are replaced -/
  | updatable
  /-- nothing works before it has been fetched -/
  | required
  /-- which setting says where to start -/
  | startingAt (key : String)
  /-- which column holds text -/
  | asText (field : String)
  deriving DecidableEq, Repr

/-- The collection of which one thing more is said. -/
def call (c : Collection) : Call → Collection
  | .dated field => c.dated field
  | .bySymbol field => c.bySymbol field
  | .byTimeframe field => c.byTimeframe field
  | .sortedBy sort => c.sortedBy sort
  | .forAll => c.forAll
  | .asViewOf source => c.asViewOf source
  | .updatable => c.updatable
  | .required => c.required
  | .startingAt key => c.startingAt key
  | .asText field => c.asText field

variable {c : Collection} {calls : List Call}

/-- Calls after which nothing says that the collection is a view. -/
def Call.IsPlain (calls : List Call) : Prop :=
  ∀ source, .asViewOf source ∉ calls

/-- A call leaves the name, the source unless it names one, and hides only a view. -/
theorem call_keeps (c : Collection) (k : Call) : (c.call k).name = c.name ∧
    (Call.IsPlain [k] → (c.call k).source = c.source ∧
      ((c.call k).visibility = .hidden ↔ c.visibility = .hidden ∧ k ≠ .forAll)) := by
  refine ⟨by cases k <;> rfl, fun hplain => ?_⟩
  cases k with
  | asViewOf source => exact absurd (List.mem_singleton_self _) (hplain source)
  | forAll => simp [call, forAll]
  | _ => exact ⟨rfl, (and_iff_left (by simp)).symm⟩

theorem name_foldl_call : (calls.foldl call c).name = c.name := by
  induction calls generalizing c with
  | nil => rfl
  | cons k rest ih => rw [List.foldl_cons, ih, (call_keeps c k).1]

/-- After plain calls the source is the one before, and so is whether the collection is hidden,
unless it is shared in between. -/
theorem foldl_call_of_isPlain (h : Call.IsPlain calls) :
    (calls.foldl call c).source = c.source ∧
      ((calls.foldl call c).visibility = .hidden ↔ c.visibility = .hidden ∧ .forAll ∉ calls) := by
  induction calls generalizing c with
  | nil => simp
  | cons k rest ih =>
    have hfirst : Call.IsPlain [k] := fun s hs =>
      h s (List.mem_singleton.mp hs ▸ List.mem_cons_self)
    obtain ⟨-, hkeeps⟩ := call_keeps c k
    obtain ⟨hsource, hhidden⟩ := hkeeps hfirst
    obtain ⟨hsource', hhidden'⟩ := ih (c := c.call k) fun s hs => h s (List.mem_cons_of_mem _ hs)
    rw [List.foldl_cons, hsource', hhidden', hsource, hhidden, List.mem_cons, not_or, and_assoc,
      ne_comm]
    exact ⟨rfl, Iff.rfl⟩

/-- Some call is the last that names a source, or none does. -/
theorem Call.isPlain_or_exists (calls : List Call) : IsPlain calls ∨
    ∃ before source after, calls = before ++ .asViewOf source :: after ∧ IsPlain after := by
  induction calls with
  | nil => exact .inl fun _ => List.not_mem_nil
  | cons k rest ih =>
    obtain hplain | ⟨before, source, after, rfl, hafter⟩ := ih
    · by_cases hview : ∃ source, k = .asViewOf source
      · obtain ⟨source, rfl⟩ := hview
        exact .inr ⟨[], source, rest, rfl, hplain⟩
      · refine .inl fun source hmem => ?_
        obtain rfl | hmem := List.mem_cons.mp hmem
        · exact hview ⟨source, rfl⟩
        · exact hplain source hmem
    · exact .inr ⟨k :: before, source, after, rfl, hafter⟩

/-- A collection that is not hidden has its rows in its own table. -/
def IsAtHome (c : Collection) : Prop :=
  c.visibility ≠ .hidden → c.table = c.name

theorem isAtHome_iff :
    c.IsAtHome ↔ (c.visibility ≠ .hidden → c.source = none ∨ c.source = some c.name) := by
  rw [IsAtHome, table]
  cases c.source <;> simp

end Collection

/-- How a collection is put together: what has to be said of it, and the calls that follow. -/
structure Recipe where
  /-- its name -/
  name : String
  /-- the method that fetches it -/
  method : String
  /-- the model of its table -/
  model : Model
  /-- the most rows of a page -/
  pageLimit : Nat
  /-- all else that is said of it, in order -/
  calls : List Collection.Call
  deriving DecidableEq, Repr

namespace Recipe

open Collection

variable {r : Recipe}

/-- The collection. -/
def collection (r : Recipe) : Collection :=
  r.calls.foldl call (.new r.name r.method r.model r.pageLimit)

/-- The last source that is named is another collection, and the collection is shared after that. -/
def Unhides (r : Recipe) : Prop :=
  ∃ before source after, r.calls = before ++ .asViewOf source :: after ∧ Call.IsPlain after ∧
    .forAll ∈ after ∧ source ≠ r.name

theorem name_collection : r.collection.name = r.name :=
  name_foldl_call

/-- What the calls up to the last that names a source leave to be said. -/
theorem collection_of_view {before after : List Call} {source : String}
    (hcalls : r.calls = before ++ .asViewOf source :: after) (hafter : Call.IsPlain after) :
    r.collection.source = some source ∧ (r.collection.visibility = .hidden ↔ .forAll ∉ after) := by
  rw [collection, hcalls, List.foldl_append, List.foldl_cons]
  obtain ⟨hsource, hhidden⟩ := foldl_call_of_isPlain hafter
    (c := (before.foldl call (.new r.name r.method r.model r.pageLimit)).call (.asViewOf source))
  exact ⟨hsource, hhidden.trans (and_iff_right rfl)⟩

/-- A collection has its rows elsewhere, and is not hidden, only if it was hidden once. -/
theorem isAtHome_iff_not_unhides : r.collection.IsAtHome ↔ ¬r.Unhides := by
  rw [isAtHome_iff, name_collection]
  constructor
  · rintro hhome ⟨before, source, after, hcalls, hafter, hshared, hother⟩
    obtain ⟨hsource, hhidden⟩ := collection_of_view hcalls hafter
    obtain hnone | hown := hhome fun h => hhidden.mp h hshared
    · rw [hsource] at hnone
      cases hnone
    · rw [hsource] at hown
      exact hother (Option.some.inj hown)
  · intro hnever hvisible
    obtain hplain | ⟨before, source, after, hcalls, hafter⟩ := Call.isPlain_or_exists r.calls
    · exact .inl (foldl_call_of_isPlain hplain).1
    · obtain ⟨hsource, hhidden⟩ := collection_of_view hcalls hafter
      have hshared : .forAll ∈ after := not_not.mp fun h => hvisible (hhidden.mpr h)
      by_contra hother
      rw [hsource, Option.some.injEq, not_or] at hother
      exact hnever ⟨before, source, after, hcalls, hafter, hshared, hother.2⟩

end Recipe

/-! ## Catalogs -/

namespace Catalog

variable {cs : List Collection} {catalog : Catalog}

/-- Every collection has its rows in the table of one that is not hidden, which is its own unless it
is hidden itself. -/
structure NamesTables (catalog : Catalog) : Prop where
  /-- the table is one of those of the catalog -/
  listed : ∀ c ∈ catalog.collections, ∃ m, (c.table, m) ∈ catalog.tables
  /-- and what is not hidden has its own -/
  own : ∀ c ∈ catalog.collections, c.IsAtHome

theorem mem_tables {name : String} {m : Model} : (name, m) ∈ catalog.tables ↔
    ∃ c ∈ catalog.collections, c.visibility ≠ .hidden ∧ c.name = name ∧ c.model = m := by
  simp only [tables, List.mem_map, List.mem_filter, Bool.not_eq_true', ← Bool.not_eq_true,
    Collection.isHidden_iff, Prod.mk.injEq, and_assoc]

/-- **The tables of a catalog.** Every hidden collection has its rows in a table of the catalog. So
has every other one, and that table is its own, if and only if no collection that is not hidden
names another as its source; of collections that are put together by calls, if and only if none is
shared after it has been made a view of another. -/
theorem namesTables_iff (h : ofCollections cs = .ok catalog) :
    (∀ c ∈ cs, c.visibility = .hidden → ∃ m, (c.table, m) ∈ catalog.tables) ∧
    (catalog.NamesTables ↔
      ∀ c ∈ cs, c.visibility ≠ .hidden → c.source = none ∨ c.source = some c.name) ∧
    ∀ recipes : List Recipe, cs = recipes.map Recipe.collection →
      (catalog.NamesTables ↔ ∀ r ∈ recipes, ¬r.Unhides) := by
  obtain ⟨hlawful, rfl⟩ := ofCollections_eq_ok_iff.mp h
  have hhidden : ∀ c ∈ catalog.collections, c.visibility = .hidden →
      ∃ m, (c.table, m) ∈ catalog.tables := by
    intro c hc hhidden
    obtain ⟨shown, hshown, hsource, hvisible⟩ := hlawful.sources c hc hhidden
    refine ⟨shown.model, mem_tables.mpr ⟨shown, hshown, hvisible, ?_, rfl⟩⟩
    rw [Collection.table, hsource, Option.getD_some]
  have hhome : catalog.NamesTables ↔ ∀ c ∈ catalog.collections, c.IsAtHome := by
    refine ⟨NamesTables.own, fun hown => ⟨fun c hc => ?_, hown⟩⟩
    by_cases hc' : c.visibility = .hidden
    · exact hhidden c hc hc'
    · exact ⟨c.model, mem_tables.mpr ⟨c, hc, hc', (hown c hc hc').symm, rfl⟩⟩
  refine ⟨hhidden, ?_, fun recipes hrecipes => ?_⟩
  · simp only [hhome, Collection.isAtHome_iff]
  · rw [hhome, hrecipes, List.forall_mem_map]
    simp only [Recipe.isAtHome_iff_not_unhides]

/-- Prices that were a view of something else before all users shared them. -/
def prices : Recipe :=
  ⟨"prices", "getPrices", ⟨[⟨"_id", .idPrimaryKey⟩, ⟨"mts", .bigint⟩], [], [], [], []⟩, 1,
    [.asViewOf "ledgers", .forAll]⟩

/-- They make a catalog by themselves, of one table, and have their rows in another. -/
theorem namesTables_iff_prices : ∃ catalog, ofCollections [prices.collection] = .ok catalog ∧
    catalog.tables = [("prices", prices.model)] ∧
    (catalog.collections.map Collection.table) = ["ledgers"] ∧
    prices.Unhides ∧ ¬catalog.NamesTables := by
  have hmade : ofCollections [prices.collection] = .ok ⟨[prices.collection]⟩ :=
    of_toOption (by decide +kernel)
  have hunhides : prices.Unhides :=
    ⟨[], "ledgers", [.forAll], rfl, by simp [Collection.Call.IsPlain], by simp,
      by decide⟩
  obtain ⟨-, -, hrecipes⟩ := namesTables_iff hmade
  refine ⟨_, hmade, rfl, rfl, hunhides, fun hnames => ?_⟩
  exact (hrecipes [prices] rfl).mp hnames prices (List.mem_singleton_self _) hunhides

end Catalog

end AccountHistory
