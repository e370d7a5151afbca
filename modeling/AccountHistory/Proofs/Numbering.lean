import Mathlib.Data.List.Forall2
import AccountHistory.Proofs.Arrivals
import AccountHistory.Proofs.Reactions

/-!
# Numbers of rows

A table that gives no identifier twice keeps a note of the last one that it gave. Each row that
comes without an identifier gets one behind the note, and the note moves on; so no row is ever ahead
of the note, and numbers only rise. What may break this are identifiers that are given by hand: an
insertion, a trigger or a reference may write into the identifying column.

* `Database.Counts` is the state of such a table: its rows show their numbers, none is ahead of the
  note;
* `Table.Spares` says that a statement, a trigger or a reference leaves the numbers alone;
* `Continues`, an instance of `Keeps`, says what statements that leave them alone keep.
-/

namespace AccountHistory

namespace Store

open Sql

/-! ## Tables that count -/

namespace Table

/-- The name stands for the identifiers of rows. -/
def isIdentifier (t : Table) (name : String) : Bool :=
  t.isKeyName name || t.isIdName name

/-- One column identifies rows, and no identifier is given twice. -/
structure IsCounting (t : Table) (key : String) : Prop where
  /-- no two columns have one name -/
  names : DistinctNames t.columns
  /-- the identifying column -/
  column : ∃ c ∈ t.columns, c.name = key ∧ c.key = some .autoincrement ∧
    ∀ d ∈ t.columns, d.key.isSome = true → d = c

/-- The row has a value for each column, and its identifier in the identifying one. -/
def Shows (t : Table) (r : Row) : Prop :=
  List.Forall₂ (fun c v => c.key.isSome = true → v = .int r.id) t.columns r.values

variable {t : Table} {key : String} {r : Row}

theorem IsCounting.isAutoincrement (h : t.IsCounting key) : t.isAutoincrement = true := by
  obtain ⟨c, hc, -, hkey, -⟩ := h.column
  exact List.any_eq_true.mpr ⟨c, hc, by rw [hkey]; rfl⟩

theorem shows_newValues {clock : Int} {given : List (String × Value)}
    (h : r.values = Database.newValues clock t r.id given) : t.Shows r := by
  rw [Shows, h, Database.newValues, List.forall₂_map_right_iff, List.forall₂_same]
  intro c _ hkey
  rw [if_pos hkey]

theorem shows_changedValues {r' : Row} {assignments : List (String × Value)} (hr : t.Shows r)
    (h : r'.values = Database.changedValues t r r'.id assignments) : t.Shows r' := by
  rw [Shows, h, Database.changedValues]
  rw [Shows] at hr
  generalize t.columns = columns at hr ⊢
  generalize r.values = values at hr ⊢
  induction hr with
  | nil => exact .nil
  | cons _ _ ih =>
    exact .cons (fun hkey => if_pos hkey) ih

/-- The value that a row shows in the identifying column. -/
theorem value?_of_shows (h : t.IsCounting key) (hr : t.Shows r) :
    t.value? r key = some (.int r.id) := by
  obtain ⟨c, hc, rfl, hkey, -⟩ := h.column
  obtain ⟨i, hi, hindex, hfound⟩ := exists_columnIndex? h.names hc
  have hlength : i < r.values.length := hr.length_eq ▸ hi
  have hshown := hr.get hi hlength
  rw [List.get_eq_getElem, List.get_eq_getElem, hfound, hkey] at hshown
  rw [value?, hindex, Option.map_some, List.getD_eq_getElem?_getD, List.getElem?_eq_getElem hlength]
  exact congrArg some (hshown rfl)

/-- A value that is given for a column of some table is none for the identifiers of this one. -/
def Spares (t : Table) (name column : String) : Prop :=
  Text.sameFold name t.name = true → t.isIdentifier column = false

/-- The action gives no identifiers to rows of the table. -/
def SparedBy (t : Table) : Action → Prop
  | .insert name columns _ => ∀ c ∈ t.columnsGiven columns, t.Spares name c
  | .update name assignments _ => ∀ a ∈ assignments, t.Spares name a.1
  | .delete _ _ | .select _ => True

instance (t : Table) (name column : String) : Decidable (t.Spares name column) :=
  inferInstanceAs (Decidable (_ → _))

instance (t : Table) : (a : Action) → Decidable (t.SparedBy a)
  | .insert name columns _ =>
    inferInstanceAs (Decidable (∀ c ∈ t.columnsGiven columns, t.Spares name c))
  | .update name assignments _ =>
    inferInstanceAs (Decidable (∀ a ∈ assignments, t.Spares name a.1))
  | .delete _ _ | .select _ => inferInstanceAs (Decidable True)

end Table

/-! ## The note of the last identifier -/

namespace Database

variable {db db' : Database} {t : Table} {table key : String}

theorem lookup_noted (name m : String) (id : Int) (entries : List (String × Int)) :
    (noted name id entries).lookup m = if m = name then some id else entries.lookup m := by
  induction entries with
  | nil =>
    rw [noted, List.lookup_cons, beq_eq_decide]
    by_cases h : m = name <;> simp [h]
  | cons s rest ih =>
    rw [noted]
    by_cases hs : s.1 = name
    · rw [if_pos hs, List.lookup_cons, List.lookup_cons, hs, beq_eq_decide]
      by_cases h : m = name <;> simp [h]
    · rw [if_neg hs, List.lookup_cons, List.lookup_cons, ih]
      by_cases h : m = name
      · have hne : (m == s.1) = false := by simpa [h] using Ne.symm hs
        rw [hne, if_pos h]
      · rw [if_neg h, if_neg h]

theorem lastGiven_give_self (name : String) (id : Int) :
    (db.give name id).lastGiven name = max id (db.lastGiven name) := by
  rw [give, lastGiven, Option.getD_some, lookup_noted, if_pos rfl]
  rfl

theorem lastGiven_give_of_ne {name m : String} (h : m ≠ name) (id : Int) :
    (db.give name id).lastGiven m = db.lastGiven m := by
  rw [give, lastGiven, Option.getD_some, lookup_noted, if_neg h]
  rfl

/-- A number that a counting table gives is behind the last one. -/
theorem lastGiven_lt_of_nextId {id : Int} (hauto : t.isAutoincrement = true)
    (h : db.nextId t = .ok id) : db.lastGiven t.name < id := by
  rw [nextId, if_pos hauto] at h
  split at h
  · cases h
  · obtain rfl := Except.ok.inj h
    omega

theorem newId_of_spared {given : List (String × Value)}
    (h : ∀ a ∈ given, t.isIdentifier a.1 = false) : db.newId t given = db.nextId t := by
  have hfind : (given.reverse.find? fun a => t.isKeyName a.1 || t.isIdName a.1) = none := by
    refine List.find?_eq_none.mpr fun a ha => ?_
    exact Bool.eq_false_iff.mp (h a (List.mem_reverse.mp ha))
  rw [newId, givenId?, hfind, Option.map_none, Option.getD_none, Affinity.store_null]

theorem changedId_of_spared {r : Row} {assignments : List (String × Value)}
    (h : ∀ a ∈ assignments, t.isIdentifier a.1 = false) : changedId t r assignments = .ok r.id := by
  have hfind : (assignments.reverse.find? fun a => t.isKeyName a.1 || t.isIdName a.1) = none := by
    refine List.find?_eq_none.mpr fun a ha => ?_
    exact Bool.eq_false_iff.mp (h a (List.mem_reverse.mp ha))
  rw [changedId, givenId?, hfind]
  rfl

/-- Where a row has got new values, its identifier is the one it had or was given, and no other row
has it. -/
theorem of_replaceRow {clock : Int} {r r' : Row} {assignments : List (String × Value)}
    (h : db.replaceRow clock t r assignments = .ok (db', r')) :
    changedId t r assignments = .ok r'.id ∧
      r'.values = changedValues t r r'.id assignments ∧
      (∀ s ∈ t.rowsBut r.id, s.id ≠ r'.id) ∧
      db' = db.withRows t.name (Table.putRow r' (t.rowsBut r.id)) := by
  rw [replaceRow] at h
  split at h
  · cases h
  obtain ⟨id, hid, h⟩ := exists_of_bind h
  obtain ⟨-, -, h⟩ := exists_of_bind h
  obtain ⟨hfree, h⟩ := of_guard h
  obtain ⟨rfl, rfl⟩ := Prod.mk.inj (Except.ok.inj h)
  refine ⟨hid, rfl, fun s hs heq => ?_, rfl⟩
  exact hfree (List.find?_isSome.mpr ⟨s, hs, by simpa using heq⟩)

/-- The table counts its rows, and none of them is ahead of the note. -/
structure Counts (db : Database) (table key : String) (t : Table) : Prop where
  /-- the table -/
  found : db.table? table = some t
  /-- it gives no identifier twice -/
  counting : t.IsCounting key
  /-- no two rows have one number -/
  nodup : (t.rows.map Row.id).Nodup
  /-- rows show their numbers -/
  shows : ∀ r ∈ t.rows, t.Shows r
  /-- no number is ahead of the note -/
  le_lastGiven : ∀ r ∈ t.rows, r.id ≤ db.lastGiven t.name

theorem Counts.sameFold (h : db.Counts table key t) : Text.sameFold t.name table = true :=
  sameFold_of_table? h.found

/-- A table without rows counts whatever is noted. -/
theorem Counts.of_empty (hfound : db.table? table = some t) (hcounting : t.IsCounting key)
    (hempty : t.rows = []) : db.Counts table key t := by
  refine ⟨hfound, hcounting, ?_, ?_, ?_⟩
  all_goals simp [hempty]

/-- The next number is the one behind the last. -/
theorem Counts.nextId_eq (h : db.Counts table key t) (hzero : 0 ≤ db.lastGiven t.name) {id : Int}
    (hid : db.nextId t = .ok id) : id = db.lastGiven t.name + 1 := by
  have hlast : (t.lastId?.map (· + 1)).getD 1 ≤ db.lastGiven t.name + 1 := by
    rw [Table.lastId?]
    cases hr : t.rows.getLast? with
    | none => exact Int.add_le_add_right hzero 1
    | some r => simpa using h.le_lastGiven r (List.mem_of_getLast? hr)
  rw [nextId, if_pos h.counting.isAutoincrement] at hid
  split at hid
  · cases hid
  · obtain rfl := Except.ok.inj hid
    exact max_eq_right hlast

section Steps

variable {name : String} {u : Table} {rows : List Row} {r r' : Row} {clock : Int}

/-! ## Steps on single rows -/

/-- A row that is put among rows of a counting table keeps the count if its number is free there and
not ahead of the note. -/
theorem Counts.putRow (h : db.Counts table key t) (hrows : rows.Sublist t.rows)
    (hfree : ∀ s ∈ rows, s.id ≠ r.id) (hshows : t.Shows r)
    (hfound : db'.table? table = some { t with rows := Table.putRow r rows })
    (hle : r.id ≤ db'.lastGiven t.name) (hnote : db.lastGiven t.name ≤ db'.lastGiven t.name) :
    db'.Counts table key { t with rows := Table.putRow r rows } := by
  have hperm := Table.perm_putRow hfree
  have hmem : ∀ s ∈ Table.putRow r rows, s = r ∨ s ∈ t.rows := fun s hs =>
    (List.mem_cons.mp (hperm.mem_iff.mp hs)).imp_right fun hs => hrows.subset hs
  refine ⟨hfound, ⟨h.counting.names, h.counting.column⟩, ?_, fun s hs => ?_, fun s hs => ?_⟩
  · rw [(hperm.map Row.id).nodup_iff, List.map_cons, List.nodup_cons]
    refine ⟨fun hmem => ?_, h.nodup.sublist (hrows.map _)⟩
    obtain ⟨s, hs, heq⟩ := List.mem_map.mp hmem
    exact hfree s hs heq
  · rcases hmem s hs with rfl | hs
    · exact hshows
    · exact h.shows s hs
  · rcases hmem s hs with rfl | hs
    · exact hle
    · exact (h.le_lastGiven s hs).trans hnote

/-- A row that comes to a counting table moves the note to its number, unless it is ahead. -/
theorem Counts.addRow (h : db.Counts table key t) {given : List (String × Value)}
    (hadd : db.addRow clock t given = .ok (db', r)) :
    db'.Counts table key { t with rows := Table.putRow r t.rows } ∧
      db'.lastGiven t.name = max r.id (db.lastGiven t.name) := by
  obtain ⟨-, hvalues, hfree, rfl⟩ := of_addRow hadd
  rw [if_pos h.counting.isAutoincrement]
  have hgiven : ((db.withRows t.name (Table.putRow r t.rows)).give t.name r.id).lastGiven t.name
      = max r.id (db.lastGiven t.name) :=
    lastGiven_give_self t.name r.id
  refine ⟨h.putRow (.refl _) hfree (Table.shows_newValues hvalues) ?_ ?_ ?_, hgiven⟩
  · rw [table?_give, withRows_congr h.sameFold]
    exact table?_withRows_self h.found _
  · rw [hgiven]
    exact le_max_left _ _
  · rw [hgiven]
    exact le_max_right _ _

/-- A row whose number is left alone keeps it. -/
theorem Counts.replaceRow (h : db.Counts table key t) (hr : r ∈ t.rows)
    {assignments : List (String × Value)} (hspared : ∀ a ∈ assignments, t.isIdentifier a.1 = false)
    (hreplace : db.replaceRow clock t r assignments = .ok (db', r')) :
    r'.id = r.id ∧ db' = db.withRows t.name (Table.putRow r' (t.rowsBut r.id)) ∧
      db'.Counts table key { t with rows := Table.putRow r' (t.rowsBut r.id) } := by
  obtain ⟨hid, hvalues, hfree, rfl⟩ := of_replaceRow hreplace
  rw [changedId_of_spared hspared] at hid
  have hid : r'.id = r.id := (Except.ok.inj hid).symm
  refine ⟨hid, rfl, h.putRow List.filter_sublist hfree
    (Table.shows_changedValues (h.shows r hr) hvalues) ?_ (hid ▸ h.le_lastGiven r hr) le_rfl⟩
  rw [withRows_congr h.sameFold]
  exact table?_withRows_self h.found _

/-- Rows that go leave the others. -/
theorem Counts.withRows (h : db.Counts table key t) (hname : Text.sameFold name table = true)
    (hrows : rows.Sublist t.rows) :
    (db.withRows name rows).Counts table key { t with rows } where
  found := by
    rw [withRows_congr hname]
    exact table?_withRows_self h.found rows
  counting := ⟨h.counting.names, h.counting.column⟩
  nodup := h.nodup.sublist (hrows.map _)
  shows r hr := h.shows r (hrows.subset hr)
  le_lastGiven r hr := h.le_lastGiven r (hrows.subset hr)

/-- What happens elsewhere leaves the numbers alone. -/
theorem Counts.of_elsewhere (h : db.Counts table key t)
    (hfound : db'.table? table = db.table? table)
    (hgiven : db'.lastGiven t.name = db.lastGiven t.name) : db'.Counts table key t where
  found := hfound.trans h.found
  counting := h.counting
  nodup := h.nodup
  shows := h.shows
  le_lastGiven r hr := hgiven ▸ h.le_lastGiven r hr

/-- A table that is found by a name of the counting table is that one. -/
theorem Counts.eq_of_sameFold (h : db.Counts table key t) (hu : db.table? name = some u)
    (hname : Text.sameFold name t.name = true) : u = t := by
  have hsame : Text.sameFold name table = true :=
    (Text.sameFold_congr hname table).trans h.sameFold
  rw [table?_congr hsame, h.found] at hu
  exact (Option.some.inj hu).symm

/-- A table that is found by another name has another name. -/
theorem Counts.ne_of_not_sameFold (h : db.Counts table key t) (hu : db.table? name = some u)
    (hname : Text.sameFold name t.name = false) :
    Text.sameFold table u.name = false ∧ t.name ≠ u.name := by
  have hother : Text.sameFold table u.name = false := by
    rw [← Text.sameFold_congr h.sameFold, Text.sameFold_comm,
      Text.sameFold_congr (sameFold_of_table? hu), hname]
  refine ⟨hother, fun heq => ?_⟩
  have hsame := h.sameFold
  rw [heq, Text.sameFold_comm, hother] at hsame
  cases hsame

end Steps

/-! ## Statements that leave numbers alone -/

/-- No trigger and no reference gives identifiers to rows of the table. -/
structure Spares (db : Database) (t : Table) : Prop where
  /-- triggers -/
  triggers : ∀ g ∈ db.triggers, ∀ a ∈ g.actions, t.SparedBy a
  /-- references -/
  references : ∀ u ∈ db.tables, ∀ f ∈ u.foreignKeys, ∀ c ∈ f.columns, t.Spares u.name c

instance (db : Database) (t : Table) : Decidable (db.Spares t) :=
  decidable_of_iff ((∀ g ∈ db.triggers, ∀ a ∈ g.actions, t.SparedBy a) ∧
    ∀ u ∈ db.tables, ∀ f ∈ u.foreignKeys, ∀ c ∈ f.columns, t.Spares u.name c)
    ⟨fun h => ⟨h.1, h.2⟩, fun h => ⟨h.triggers, h.references⟩⟩

/-- What statements keep that leave the numbers of the table `t` alone: it has the same shape, it
counts its rows, and each of them was there or has a number behind the last one. -/
structure Continues (table key : String) (t : Table) (before db : Database) : Prop where
  /-- the table counts its rows -/
  counts : ∃ rows, db.Counts table key { t with rows } ∧
    ∀ r ∈ rows, r.id ∈ t.rows.map Row.id ∨ before.lastGiven t.name < r.id
  /-- the note moves on -/
  given : before.lastGiven t.name ≤ db.lastGiven t.name
  /-- triggers are the same -/
  triggers : db.triggers = before.triggers
  /-- and so are the promises of all tables -/
  rules : db.tables.map (fun u => (u.name, u.rules)) = before.tables.map fun u => (u.name, u.rules)

theorem Continues.refl (h : db.Counts table key t) : Continues table key t db db where
  counts := ⟨t.rows, h, fun _ hr => .inl (List.mem_map_of_mem hr)⟩
  given := Int.le_refl _
  triggers := rfl
  rules := rfl

theorem rules_withRows (name : String) (rows : List Row) :
    (db.withRows name rows).tables.map (fun u => (u.name, u.rules))
      = db.tables.map fun u => (u.name, u.rules) := by
  rw [withRows, List.map_map]
  refine List.map_congr_left fun u _ => ?_
  rw [Function.comp_apply]
  split <;> rfl

/-- A row that comes to any table changes neither triggers nor promises. -/
theorem rules_addRow {clock : Int} {u : Table} {given : List (String × Value)} {r : Row}
    (h : db.addRow clock u given = .ok (db', r)) : db'.triggers = db.triggers ∧
      db'.tables.map (fun u => (u.name, u.rules)) = db.tables.map fun u => (u.name, u.rules) := by
  obtain ⟨-, -, -, rfl⟩ := of_addRow h
  split
  · exact ⟨rfl, rules_withRows _ _⟩
  · exact ⟨rfl, rules_withRows _ _⟩

/-- What happens to other tables leaves the numbers alone. -/
theorem Continues.of_elsewhere {before : Database} (h : Continues table key t before db)
    (hfound : db'.table? table = db.table? table)
    (hgiven : db'.lastGiven t.name = db.lastGiven t.name) (htriggers : db'.triggers = db.triggers)
    (hrules : db'.tables.map (fun u => (u.name, u.rules))
      = db.tables.map fun u => (u.name, u.rules)) : Continues table key t before db' := by
  obtain ⟨rows, hcounts, hnew⟩ := h.counts
  exact ⟨⟨rows, hcounts.of_elsewhere hfound hgiven, hnew⟩, hgiven ▸ h.given,
    htriggers.trans h.triggers, hrules.trans h.rules⟩

/-! ### One lemma for each step -/

section Steps

variable {before : Database} {name : String} {u : Table} {r r' : Row} {clock : Int}

theorem Continues.addRow (h : Continues table key t before db) (hu : db.table? name = some u)
    {given : List (String × Value)} (hspared : ∀ a ∈ given, t.Spares name a.1)
    (hadd : db.addRow clock u given = .ok (db', r)) : Continues table key t before db' := by
  obtain ⟨htriggers, hrules⟩ := rules_addRow hadd
  obtain ⟨rows, hcounts, hnew⟩ := h.counts
  cases hname : Text.sameFold name t.name with
  | true =>
    obtain rfl := hcounts.eq_of_sameFold hu hname
    have hfresh : db.newId { t with rows } given = db.nextId { t with rows } :=
      newId_of_spared fun a ha => hspared a ha hname
    obtain ⟨hid, -, hfree, -⟩ := of_addRow hadd
    have hlt := lastGiven_lt_of_nextId hcounts.counting.isAutoincrement (hfresh.symm.trans hid)
    obtain ⟨hcounts', hlast⟩ := hcounts.addRow hadd
    refine ⟨⟨_, hcounts', fun s hs => ?_⟩, ?_, htriggers.trans h.triggers, hrules.trans h.rules⟩
    · rcases List.mem_cons.mp ((Table.perm_putRow hfree).mem_iff.mp hs) with rfl | hs
      · exact .inr (h.given.trans_lt hlt)
      · exact hnew s hs
    · exact h.given.trans (hlast ▸ le_max_right _ _)
  | false =>
    obtain ⟨hother, hne⟩ := hcounts.ne_of_not_sameFold hu hname
    obtain ⟨-, -, -, rfl⟩ := of_addRow hadd
    refine h.of_elsewhere ?_ ?_ htriggers hrules
    · split
      · exact table?_withRows_of_ne _ hother
      · exact table?_withRows_of_ne _ hother
    · split
      · exact lastGiven_give_of_ne hne _
      · rfl

theorem Continues.replaceRow (h : Continues table key t before db) (hu : db.table? name = some u)
    (hr : r ∈ u.rows) {assignments : List (String × Value)}
    (hspared : ∀ a ∈ assignments, t.Spares name a.1)
    (hreplace : db.replaceRow clock u r assignments = .ok (db', r')) :
    Continues table key t before db' := by
  obtain ⟨rows, hcounts, hnew⟩ := h.counts
  obtain ⟨-, -, hfree, -⟩ := of_replaceRow hreplace
  cases hname : Text.sameFold name t.name with
  | true =>
    obtain rfl := hcounts.eq_of_sameFold hu hname
    obtain ⟨hid, rfl, hcounts'⟩ :=
      hcounts.replaceRow hr (fun a ha => hspared a ha hname) hreplace
    refine ⟨⟨_, hcounts', fun s hs => ?_⟩, h.given, h.triggers,
      (rules_withRows _ _).trans h.rules⟩
    rcases List.mem_cons.mp ((Table.perm_putRow hfree).mem_iff.mp hs) with rfl | hs
    · exact hid ▸ hnew r hr
    · exact hnew s (List.mem_of_mem_filter hs)
  | false =>
    obtain ⟨hother, -⟩ := hcounts.ne_of_not_sameFold hu hname
    obtain ⟨-, -, -, rfl⟩ := of_replaceRow hreplace
    exact h.of_elsewhere (table?_withRows_of_ne _ hother) rfl rfl (rules_withRows _ _)

theorem Continues.removeRow (h : Continues table key t before db) (hu : db.table? name = some u)
    (id : Int) : Continues table key t before (db.withRows name (u.rowsBut id)) := by
  obtain ⟨rows, hcounts, hnew⟩ := h.counts
  cases hname : Text.sameFold name t.name with
  | true =>
    obtain rfl := hcounts.eq_of_sameFold hu hname
    have hsame : Text.sameFold name table = true :=
      (Text.sameFold_congr hname table).trans hcounts.sameFold
    refine ⟨⟨_, hcounts.withRows hsame List.filter_sublist, fun s hs => ?_⟩, h.given, h.triggers,
      (rules_withRows _ _).trans h.rules⟩
    exact hnew s (List.mem_of_mem_filter hs)
  | false =>
    obtain ⟨hother, -⟩ := hcounts.ne_of_not_sameFold hu hname
    rw [← withRows_congr (sameFold_of_table? hu)]
    exact h.of_elsewhere (table?_withRows_of_ne _ hother) rfl rfl (rules_withRows _ _)

theorem Continues.noting (h : Continues table key t before db) (hu : db.table? name = some u)
    (id : Int) : Continues table key t before (db.noting u id) := by
  obtain ⟨rows, hcounts, hnew⟩ := h.counts
  rw [Database.noting]
  split
  case isFalse => exact h
  cases hname : Text.sameFold name t.name with
  | true =>
    obtain rfl := hcounts.eq_of_sameFold hu hname
    -- the note does not go back
    have hle : db.lastGiven t.name ≤ (db.give t.name id).lastGiven t.name :=
      lastGiven_give_self t.name id ▸ le_max_right _ _
    exact ⟨⟨rows, ⟨hcounts.found, hcounts.counting, hcounts.nodup, hcounts.shows,
      fun r hr => (hcounts.le_lastGiven r hr).trans hle⟩, hnew⟩, h.given.trans hle, h.triggers,
      h.rules⟩
  | false =>
    obtain ⟨-, hne⟩ := hcounts.ne_of_not_sameFold hu hname
    exact h.of_elsewhere rfl (lastGiven_give_of_ne hne id) rfl rfl

/-- What triggers do gives values for other columns only. -/
theorem Continues.admits (h : Continues table key t before db) {a : Action}
    (hspared : t.SparedBy a) : db.Admits t.Spares a := by
  obtain ⟨rows, hcounts, -⟩ := h.counts
  cases a with
  | insert name columns values =>
    intro u hu c hc hname
    obtain rfl := hcounts.eq_of_sameFold hu hname
    exact hspared c hc hname
  | update name assignments condition => exact hspared
  | delete | select => trivial

/-- References of tables are those that were there before. -/
theorem Continues.exists_references (h : Continues table key t before db) (hu : u ∈ db.tables) :
    ∃ o ∈ before.tables, o.name = u.name ∧ o.foreignKeys = u.foreignKeys := by
  have hmem : (u.name, u.rules) ∈ before.tables.map fun u => (u.name, u.rules) := by
    rw [← h.rules]
    exact List.mem_map_of_mem hu
  obtain ⟨o, ho, heq⟩ := List.mem_map.mp hmem
  obtain ⟨hname, hrules⟩ := Prod.mk.inj heq
  exact ⟨o, ho, hname, by rw [Table.foreignKeys, hrules, Table.foreignKeys]⟩

end Steps

/-- **Statements.** Those that leave the numbers alone keep the count. -/
theorem keeps_continues {before : Database} (hspares : before.Spares t) (clock : Int) :
    Keeps clock t.Spares before.triggers (Continues table key t before) where
  add h hu hgiven hadd := h.addRow hu hgiven hadd
  replace h hu hr hassign hreplace := h.replaceRow hu hr hassign hreplace
  remove id h hu := h.removeRow hu id
  note id h hu := h.noting hu id
  triggers h := h.triggers
  actions h g hg a ha := h.admits (hspares.triggers g hg a ha)
  references := by
    intro db h u hu f hf c hc
    obtain ⟨o, ho, hname, hreferences⟩ := h.exists_references hu
    rw [← hname]
    exact hspares.references o ho f (hreferences ▸ hf) c hc

end Database

end Store

end AccountHistory
