import Mathlib.Data.List.Perm.Basic
import Mathlib.Tactic.MkIffOfInductiveProp
import Mathlib.Data.List.Nodup
import AccountHistory.Collection.Catalog
import AccountHistory.Proofs.Outcomes

/-!
# Which lists are catalogs

A list of collections is checked in passes: each collection by itself and against the names before
it, in order, and the sources of the hidden ones at last. What the passes look for does not depend
on the order:

* `Catalog.IsLawful` says of a list, in no order, that all it says is so;
* `Catalog.ofCollections_eq_ok_iff` says that the lawful lists are the ones that become catalogs;
* `Catalog.ofCollections_perm` says that an order makes no difference but to the order.
-/

namespace AccountHistory

/-! ## What a collection says -/

namespace Collection

/-- What a collection says of itself is so. -/
@[mk_iff]
structure IsSound (c : Collection) : Prop where
  /-- the times of rows are in a column -/
  date : ∀ field, c.dateField = some field → field ∈ c.model.columnNames
  /-- their symbols are -/
  symbol : ∀ field, c.symbolField = some field → field ∈ c.model.columnNames
  /-- their timeframes are -/
  timeframe : ∀ field, c.timeframeField = some field → field ∈ c.model.columnNames
  /-- they are sorted by columns -/
  sort : ∀ s ∈ c.sort, s.1 ∈ c.model.columnNames
  /-- rows that are shared belong to nobody -/
  shared : c.visibility = .shared → Tables.userColumn ∉ c.model.columnNames
  /-- others belong to a user -/
  personal : c.visibility = .personal → Tables.userColumn ∈ c.model.columnNames
  /-- what is fetched is fetched in pages with rows -/
  pages : c.visibility ≠ .hidden → 0 < c.pageLimit

variable {c : Collection} {cs : List Collection}

theorem isHidden_iff : c.isHidden = true ↔ c.visibility = .hidden := by
  rw [isHidden, beq_iff_eq]

/-- The columns that a collection names are those of its four roles. -/
theorem forall_mem_fieldRoles {P : String → Prop} : (∀ r ∈ c.fieldRoles, P r.2) ↔
    (∀ field, c.dateField = some field → P field) ∧
      (∀ field, c.symbolField = some field → P field) ∧
      (∀ field, c.timeframeField = some field → P field) ∧ ∀ s ∈ c.sort, P s.1 := by
  simp only [fieldRoles, List.forall_mem_append, List.forall_mem_map, Option.mem_toList,
    and_assoc]

/-- The check of a collection by itself finds nothing if and only if nothing is to be found. -/
theorem fault?_eq_none_iff : c.fault? = none ↔ c.IsSound := by
  have howner : c.model.hasColumn Tables.userColumn = true ↔
      Tables.userColumn ∈ c.model.columnNames := Model.hasColumn_iff
  rw [fault?, isSound_iff]
  cases hfound : c.fieldRoles.find? fun r => !c.model.hasColumn r.2 with
  | some r =>
    -- the role of the column that is missing is not filled
    have hmem := List.mem_of_find?_eq_some hfound
    have hmissing := List.find?_some hfound
    rw [Bool.not_eq_true', ← Bool.not_eq_true, Model.hasColumn_iff] at hmissing
    refine iff_of_false (by simp) fun ⟨hdate, hsymbol, htimeframe, hsort, _⟩ => hmissing ?_
    exact forall_mem_fieldRoles.mpr ⟨hdate, hsymbol, htimeframe, hsort⟩ r hmem
  | none =>
    have hroles : ∀ r ∈ c.fieldRoles, r.2 ∈ c.model.columnNames := by
      simpa [List.find?_eq_none, Model.hasColumn_iff] using hfound
    obtain ⟨hdate, hsymbol, htimeframe, hsort⟩ := forall_mem_fieldRoles.mp hroles
    rw [and_iff_right hdate, and_iff_right hsymbol, and_iff_right htimeframe, and_iff_right hsort,
      ← howner]
    cases c.visibility with
    | hidden => simp
    | shared | personal =>
      cases c.model.hasColumn Tables.userColumn <;> simp [Nat.pos_iff_ne_zero]

end Collection

/-! ## What a list says -/

namespace Catalog

variable {cs cs' : List Collection} {c : Collection} {name : String}

/-- The source of a collection is in the list and not hidden. -/
def IsShown (cs : List Collection) (c : Collection) : Prop :=
  ∃ shown ∈ cs, c.source = some shown.name ∧ shown.visibility ≠ .hidden

/-- What a list of collections says is so. -/
structure IsLawful (cs : List Collection) : Prop where
  /-- no name is used twice -/
  names : (cs.map Collection.name).Nodup
  /-- what each collection says is so -/
  sound : ∀ c ∈ cs, c.IsSound
  /-- and what is hidden shows a collection that is not -/
  sources : ∀ c ∈ cs, c.visibility = .hidden → IsShown cs c

/-- The first pass goes through a list with the names before it. -/
theorem firstFault?_eq_none_iff {seen : List String} : firstFault? seen cs = none ↔
    (cs.map Collection.name).Nodup ∧ (∀ c ∈ cs, c.name ∉ seen) ∧ ∀ c ∈ cs, c.IsSound := by
  induction cs generalizing seen with
  | nil => simp [firstFault?]
  | cons c rest ih =>
    rw [List.map_cons, List.nodup_cons, List.forall_mem_cons, List.forall_mem_cons, firstFault?,
      ← Collection.fault?_eq_none_iff]
    cases c.fault? with
    | some e => simp
    | none =>
      dsimp only
      by_cases hseen : c.name ∈ seen
      · simp [hseen]
      · rw [if_neg (by simpa using hseen), ih]
        -- a name that comes later is new to those before it and to this one
        have hlater : (∀ d ∈ rest, d.name ∉ c.name :: seen) ↔
            c.name ∉ rest.map Collection.name ∧ ∀ d ∈ rest, d.name ∉ seen := by
          simp only [List.mem_cons, not_or, forall_and, List.mem_map, not_exists, not_and]
        rw [hlater]
        tauto

/-- Where each name is used once, a collection is found by its name. -/
theorem find?_eq_some_iff (h : (cs.map Collection.name).Nodup) :
    find? name cs = some c ↔ c ∈ cs ∧ c.name = name := by
  induction cs with
  | nil => simp [find?]
  | cons d rest ih =>
    rw [List.map_cons, List.nodup_cons] at h
    rw [find?, List.find?_cons, List.mem_cons]
    split
    case h_1 hd =>
      obtain rfl := beq_iff_eq.mp hd
      rw [Option.some.injEq]
      constructor
      · rintro rfl
        exact ⟨.inl rfl, rfl⟩
      · rintro ⟨rfl | hmem, hname⟩
        · rfl
        · exact absurd (hname ▸ List.mem_map_of_mem hmem) h.1
    case h_2 hd =>
      rw [← find?, ih h.2]
      refine and_congr_left fun hname => (or_iff_right ?_).symm
      rintro rfl
      exact absurd hname (by simpa using hd)

/-- Looking for a source finds what there is of it. -/
theorem hasSource_iff (h : (cs.map Collection.name).Nodup) :
    hasSource cs c = true ↔ IsShown cs c := by
  have hfound : hasSource cs c = true ↔
      ∃ shown, (c.source.bind fun s => find? s cs) = some shown ∧ shown.isHidden = false := by
    rw [hasSource]
    cases c.source.bind fun s => find? s cs <;> simp
  rw [hfound]
  refine exists_congr fun shown => ?_
  rw [Option.bind_eq_some_iff, ← Bool.not_eq_true, Collection.isHidden_iff]
  simp only [find?_eq_some_iff h]
  constructor
  · rintro ⟨⟨s, hs, hmem, rfl⟩, hvisible⟩
    exact ⟨hmem, hs, hvisible⟩
  · rintro ⟨hmem, hs, hvisible⟩
    exact ⟨⟨_, hs, hmem, rfl⟩, hvisible⟩

/-- The second pass looks for the sources of all that is hidden. -/
theorem firstOrphan?_eq_none_iff (h : (cs.map Collection.name).Nodup) :
    firstOrphan? cs = none ↔ ∀ c ∈ cs, c.visibility = .hidden → IsShown cs c := by
  rw [firstOrphan?, Option.map_eq_none_iff, List.find?_eq_none]
  refine forall₂_congr fun c _ => ?_
  rw [← hasSource_iff h, ← Collection.isHidden_iff]
  cases c.isHidden <;> simp

/-- The lists that become catalogs, and what becomes of them. -/
theorem ofCollections_eq_ok_iff {catalog : Catalog} :
    ofCollections cs = .ok catalog ↔ IsLawful cs ∧ catalog.collections = cs := by
  have hlawful : IsLawful cs ↔ firstFault? [] cs = none ∧ firstOrphan? cs = none := by
    constructor
    · intro h
      exact ⟨firstFault?_eq_none_iff.mpr ⟨h.names, fun _ _ => List.not_mem_nil, h.sound⟩,
        (firstOrphan?_eq_none_iff h.names).mpr h.sources⟩
    · rintro ⟨hfault, horphan⟩
      obtain ⟨hnames, -, hsound⟩ := firstFault?_eq_none_iff.mp hfault
      exact ⟨hnames, hsound, (firstOrphan?_eq_none_iff hnames).mp horphan⟩
  obtain ⟨collections⟩ := catalog
  rw [hlawful, ofCollections]
  cases firstFault? [] cs with
  | some e => simp
  | none =>
    cases firstOrphan? cs with
    | some e => simp
    | none => simp [eq_comm]

/-- Nothing that a list says depends on its order. -/
theorem IsLawful.of_perm (h : IsLawful cs) (hperm : cs.Perm cs') : IsLawful cs' where
  names := (hperm.map Collection.name).nodup_iff.mp h.names
  sound c hc := h.sound c (hperm.mem_iff.mpr hc)
  sources c hc hhidden := by
    obtain ⟨shown, hshown, hsource⟩ := h.sources c (hperm.mem_iff.mpr hc) hhidden
    exact ⟨shown, hperm.mem_iff.mp hshown, hsource⟩

/-- A catalog gives for a name the collection of that name, of which there is at most one. -/
theorem get?_eq_some_iff {catalog : Catalog} (h : ofCollections cs = .ok catalog) :
    catalog.get? name = some c ↔ c ∈ cs ∧ c.name = name := by
  obtain ⟨hlawful, rfl⟩ := ofCollections_eq_ok_iff.mp h
  exact find?_eq_some_iff hlawful.names

/-- **The order of a list makes no difference but to the order.** A list becomes a catalog if and
only if what it says is so. If it does, so does every list of the same collections; each of the
catalogs gives for every name the same collection, the one of that name, and has all of them in the
order of its list. -/
theorem ofCollections_perm (cs : List Collection) :
    ((∃ catalog, ofCollections cs = .ok catalog) ↔ IsLawful cs) ∧
    ∀ cs', cs.Perm cs' →
      ((∃ catalog, ofCollections cs = .ok catalog) ↔
        ∃ catalog, ofCollections cs' = .ok catalog) ∧
      ∀ catalog catalog', ofCollections cs = .ok catalog → ofCollections cs' = .ok catalog' →
        (∀ name, catalog.get? name = catalog'.get? name ∧
          ∀ c, catalog.get? name = some c ↔ c ∈ cs ∧ c.name = name) ∧
        catalog.collections = cs ∧ catalog'.collections = cs' := by
  have hlawful (cs : List Collection) :
      (∃ catalog, ofCollections cs = .ok catalog) ↔ IsLawful cs := by
    simp only [ofCollections_eq_ok_iff]
    exact ⟨fun ⟨_, h, _⟩ => h, fun h => ⟨⟨cs⟩, h, rfl⟩⟩
  refine ⟨hlawful cs, fun cs' hperm => ⟨?_, fun catalog catalog' h h' => ?_⟩⟩
  · rw [hlawful, hlawful]
    exact ⟨fun h => h.of_perm hperm, fun h => h.of_perm hperm.symm⟩
  · refine ⟨fun name => ⟨Option.ext fun c => ?_, fun c => get?_eq_some_iff h⟩,
      (ofCollections_eq_ok_iff.mp h).2, (ofCollections_eq_ok_iff.mp h').2⟩
    rw [get?_eq_some_iff h, get?_eq_some_iff h', hperm.mem_iff]

/-- A view of what is owed that comes before it, and trades that all users share. -/
def balances : List Collection :=
  let owned : Model :=
    ⟨[⟨"mts", .bigint⟩, ⟨"currency", .varchar⟩, ⟨"user_id", .integerNotNull⟩], [], [], [], []⟩
  let market : Model := ⟨[⟨"mts", .bigint⟩, ⟨"_symbol", .varchar⟩], [], [], [], []⟩
  [(Collection.new "wallets" "getWallets" owned 0).asViewOf "ledgers",
    ((Collection.new "ledgers" "getLedgers" owned 2500).dated "mts").bySymbol "currency",
    (((Collection.new "trades" "getTrades" market 5000).dated "mts").bySymbol "_symbol").forAll]

/-- The other way around, the view comes last. -/
theorem ofCollections_perm_balances : balances.Perm balances.reverse ∧
    ∃ catalog catalog', ofCollections balances = .ok catalog ∧
      ofCollections balances.reverse = .ok catalog' ∧ IsLawful balances ∧
      (∀ name, catalog.get? name = catalog'.get? name) ∧
      catalog.names = ["wallets", "ledgers", "trades"] ∧
      catalog'.names = ["trades", "ledgers", "wallets"] := by
  have hperm : balances.Perm balances.reverse := (List.reverse_perm _).symm
  have hmade : ofCollections balances = .ok ⟨balances⟩ := of_toOption (by decide +kernel)
  obtain ⟨hlawful, hreorder⟩ := ofCollections_perm balances
  obtain ⟨hiff, hsame⟩ := hreorder balances.reverse hperm
  obtain ⟨catalog', hmade'⟩ := hiff.mp ⟨_, hmade⟩
  obtain ⟨hget, -, hcollections⟩ := hsame _ _ hmade hmade'
  refine ⟨hperm, _, catalog', hmade, hmade', hlawful.mp ⟨_, hmade⟩, fun name => (hget name).1, rfl,
    ?_⟩
  rw [names, hcollections]
  rfl

end Catalog

end AccountHistory
