import AccountHistory.Proofs.RebuildNumbers

/-!
# Numbers of rows are given once

A history of a table that counts its rows: rows come without numbers and go, and the table is
rebuilt by models that keep the column of the numbers. As long as each rebuild finds the row of the
last number that was given, no number is given twice. A rebuild that does not find it forgets that
number, and the next row has one that was given before or left out.

* `Change.leave` is what a change leaves, and `given` are the numbers that changes give;
* `Change.IsFree` says that a change gives no number by hand, `KeepsLast` that the row of the last
  number is there;
* `given_nodup` says what holds along a history, from `leave_spec` for one change.
-/

namespace AccountHistory

open Store Sql

namespace RowNumbers

/-! ## Definition -/

/-- What happens to a table. -/
inductive Change where
  /-- rows come or go -/
  | write (c : Command)
  /-- the table is rebuilt -/
  | rebuild (m : Model)

/-- The session behind a change. What fails leaves the database as it is. -/
def Change.leave (table : String) (s : Session) : Change → Session
  | .write c => (s.obey false c).toOption.getD s
  | .rebuild m => (Blueprint.rebuildTable table m s).1

/-- The numbers of the rows of a table. -/
def numbersOf (table : String) (db : Database) : List Int :=
  (db.table? table).elim [] fun t => t.rows.map Row.id

/-- The last number given for a table. -/
def lastNumber (table : String) (db : Database) : Int :=
  (db.table? table).elim 0 fun t => db.lastGiven t.name

/-- The numbers that changes give: those of the rows that are there behind a change and were not
before it. -/
def given (table : String) : Session → List Change → List Int
  | _, [] => []
  | s, c :: rest =>
    let s' := c.leave table s
    (numbersOf table s'.database).filter (· ∉ numbersOf table s.database) ++ given table s' rest

/-- The command adds rows or removes them, and gives no numbers to rows of the table. -/
def LeavesNumbers (t : Table) : Command → Prop
  | .insert name columns _ | .insertFrom name columns _ _ =>
    Database.isReserved name = false ∧ ∀ c ∈ t.columnsGiven columns, t.Spares name c
  | .delete name _ => Database.isReserved name = false
  | _ => False

instance (t : Table) : (c : Command) → Decidable (LeavesNumbers t c)
  | .insert name columns _ | .insertFrom name columns _ _ =>
    inferInstanceAs (Decidable (Database.isReserved name = false ∧
      ∀ c ∈ t.columnsGiven columns, t.Spares name c))
  | .delete name _ => inferInstanceAs (Decidable (Database.isReserved name = false))
  | .createTable .. | .createIndex .. | .createTrigger .. | .dropTable .. | .addColumn ..
  | .renameTable .. | .setVersion .. | .setForeignKeys .. | .setLegacyRename ..
  | .setBusyTimeout .. | .select .. | .nothing => inferInstanceAs (Decidable False)

/-- The change gives no number by hand: neither a command does, nor a trigger or a reference that it
sets off; a model keeps the column of the numbers. -/
def Change.IsFree (table key : String) (s : Session) : Change → Prop
  | .write c => ∀ t ∈ s.database.table? table, s.database.Spares t ∧ LeavesNumbers t c
  | .rebuild m => m.IsPlain table ∧ m.Numbers key

/-- The row of the last number is there, or no number was given yet. -/
def KeepsLast (table : String) (db : Database) : Prop :=
  lastNumber table db ≤ 0 ∨ lastNumber table db ∈ numbersOf table db

instance (table : String) (db : Database) : Decidable (KeepsLast table db) :=
  inferInstanceAs (Decidable (_ ∨ _))

/-- If the change is a rebuild, the row of the last number is there. -/
def Change.IsTimely (table : String) (s : Session) : Change → Prop
  | .write _ => True
  | .rebuild _ => KeepsLast table s.database

/-- Something is so at each of several changes. -/
def Along (table : String) (P : Session → Change → Prop) : Session → List Change → Prop
  | _, [] => True
  | s, c :: rest => P s c ∧ Along table P (c.leave table s) rest

/-- What a rebuild does to the numbers of a table. -/
structure Renumbers (table key : String) (before after : Database) : Prop where
  /-- the table counts its rows -/
  counts : ∃ u, after.Counts table key u
  /-- the rows have their numbers -/
  kept : (numbersOf table after).Perm (numbersOf table before)
  /-- the last number is forgotten just if its row is not there -/
  forgets : lastNumber table after < lastNumber table before ↔ ¬KeepsLast table before
  /-- the next number is the one behind the last -/
  next : ∀ u, after.table? table = some u → ∀ id, after.nextId u = .ok id →
    id = lastNumber table after + 1

variable {table key : String} {s s' : Session} {t : Table} {db : Database}

/-! ## Single changes -/

theorem numbersOf_eq (h : db.Counts table key t) : numbersOf table db = t.rows.map Row.id := by
  rw [numbersOf, h.found]
  rfl

theorem lastNumber_eq (h : db.Counts table key t) : lastNumber table db = db.lastGiven t.name := by
  rw [lastNumber, h.found]
  rfl

/-- Rows that are added without numbers keep the count. -/
theorem continues_of_addRows {many : Bool} {name : String} {columns : Option (List String)}
    {rows : List (List Value)} (h : s.database.Counts table key t)
    (hspares : s.database.Spares t) (hfree : Database.isReserved name = false)
    (hcolumns : ∀ c ∈ t.columnsGiven columns, t.Spares name c)
    (hadd : s.addRows many name columns rows = .ok s') :
    Database.Continues table key t s.database s'.database := by
  rw [Session.addRows, Database.isSequence_of_free hfree, if_neg Bool.false_ne_true] at hadd
  obtain ⟨db, hdb, rfl⟩ := exists_of_map hadd
  refine (Database.keeps_continues hspares s.clock).insert rfl (fun c hc hname => ?_) (.refl h) hdb
  -- the columns are those of the table if it is the one that is written to
  have hfound : s.database.table? name = some t := by
    rw [Database.table?_congr ((Text.sameFold_congr hname table).trans h.sameFold), h.found]
  rw [Session.columnsGiven, hfound] at hc
  exact hcolumns c hc hname

/-- Commands that give no numbers by hand keep the count. -/
theorem continues_of_obey {c : Command} (h : s.database.Counts table key t)
    (hspares : s.database.Spares t) (hc : LeavesNumbers t c) (hobey : s.obey false c = .ok s') :
    Database.Continues table key t s.database s'.database := by
  cases c with
  | insert name columns rows =>
    obtain ⟨hfree, hcolumns⟩ := hc
    obtain ⟨-, -, hadd⟩ := exists_of_bind hobey
    exact continues_of_addRows h hspares hfree hcolumns hadd
  | insertFrom name columns source row =>
    obtain ⟨hfree, hcolumns⟩ := hc
    obtain ⟨rows, -, hobey⟩ := exists_of_bind hobey
    obtain ⟨-, hadd⟩ := of_guard hobey
    exact continues_of_addRows h hspares hfree hcolumns hadd
  | delete name condition =>
    rw [Session.obey, Database.isSequence_of_free hc, if_neg Bool.false_ne_true] at hobey
    obtain ⟨db, hdb, rfl⟩ := exists_of_map hobey
    exact (Database.keeps_continues hspares s.clock).delete rfl (.refl h) hdb
  | _ => exact hc.elim

/-- **A step.** A change that gives no number by hand, and is timely if it is a rebuild, keeps the
count; the last number does not fall, and rows that are new have a number behind it. -/
theorem leave_spec {c : Change} (h : s.database.Counts table key t) (hfree : c.IsFree table key s)
    (htimely : c.IsTimely table s) :
    ∃ t', (c.leave table s).database.Counts table key t' ∧
      lastNumber table s.database ≤ lastNumber table (c.leave table s).database ∧
      ∀ n ∈ numbersOf table (c.leave table s).database,
        n ∈ numbersOf table s.database ∨ lastNumber table s.database < n := by
  cases c with
  | write c =>
    obtain ⟨hspares, hc⟩ := hfree t h.found
    have hcontinues : Database.Continues table key t s.database
        ((Change.write c).leave table s).database := by
      rw [Change.leave]
      cases hobey : s.obey false c with
      | ok s' => exact continues_of_obey h hspares hc hobey
      | error fault => exact .refl h
    obtain ⟨rows, hcounts, hnew⟩ := hcontinues.counts
    refine ⟨_, hcounts, ?_, ?_⟩
    · rw [lastNumber_eq h, lastNumber_eq hcounts]
      exact hcontinues.given
    · rw [lastNumber_eq h, numbersOf_eq h, numbersOf_eq hcounts]
      exact List.forall_mem_map.mpr hnew
  | rebuild m =>
    obtain ⟨hplain, hm⟩ := hfree
    obtain ⟨hsame, -⟩ | ⟨u, hcounts, hids, hlast⟩ := Blueprint.counts_rebuildTable hplain hm h
    · rw [Change.leave, hsame]
      exact ⟨t, h, Int.le_refl _, fun n hn => .inl hn⟩
    · refine ⟨u, hcounts, ?_, fun n hn => .inl ?_⟩
      · -- the note is behind zero and behind the numbers of all rows
        obtain ⟨hzero, hrows⟩ := (hlast _).mp (Int.le_refl _)
        change KeepsLast table s.database at htimely
        rw [KeepsLast, lastNumber_eq h, numbersOf_eq h] at htimely
        rw [lastNumber_eq h, Change.leave, lastNumber_eq hcounts]
        rcases htimely with hnone | hthere
        · exact hnone.trans hzero
        · obtain ⟨r, hr, heq⟩ := List.mem_map.mp hthere
          exact heq ▸ hrows r hr
      · rw [Change.leave, numbersOf_eq hcounts] at hn
        rw [numbersOf_eq h]
        exact hids.mem_iff.mp hn

/-! ## Histories -/

/-- **A run.** The numbers that changes give are all behind the last one before them, and no number
is given twice. -/
theorem given_spec {changes : List Change} (h : s.database.Counts table key t)
    (hfree : Along table (Change.IsFree table key) s changes)
    (htimely : Along table (Change.IsTimely table) s changes) :
    (given table s changes).Nodup ∧
      ∀ n ∈ given table s changes, lastNumber table s.database < n := by
  induction changes generalizing s t with
  | nil => exact ⟨List.nodup_nil, nofun⟩
  | cons c rest ih =>
    obtain ⟨t', h', hle, hnew⟩ := leave_spec h hfree.1 htimely.1
    obtain ⟨hnodup, hlater⟩ := ih h' hfree.2 htimely.2
    rw [given]
    constructor
    · have hids : (numbersOf table (c.leave table s).database).Nodup := by
        rw [numbersOf_eq h']
        exact h'.nodup
      refine List.nodup_append.mpr ⟨hids.filter _, hnodup, fun n hn m hm heq => ?_⟩
      -- a number that is there is not ahead of the last one, and later ones are behind it
      have hthere := List.mem_of_mem_filter hn
      rw [numbersOf_eq h'] at hthere
      obtain ⟨r, hr, hid⟩ := List.mem_map.mp hthere
      have hbound := h'.le_lastGiven r hr
      have hahead := hlater m hm
      rw [lastNumber_eq h'] at hahead
      omega
    · intro n hn
      rcases List.mem_append.mp hn with hn | hn
      · obtain ⟨hthere, hfresh⟩ := List.mem_filter.mp hn
        exact (hnew n hthere).resolve_left (by simpa using hfresh)
      · exact hle.trans_lt (hlater n hn)

/-- A rebuild that has statements to run renumbers. -/
theorem renumbers_of_rebuildTable {m : Model} {count : Nat} (h : s.database.Counts table key t)
    (hplain : m.IsPlain table) (hm : m.Numbers key)
    (hok : (Blueprint.rebuildTable table m s).2 = .ok (count + 1)) :
    Renumbers table key s.database (Blueprint.rebuildTable table m s).1.database := by
  obtain ⟨-, hnone⟩ | ⟨u, hcounts, hids, hlast⟩ := Blueprint.counts_rebuildTable hplain hm h
  · exact absurd hok (hnone count)
  have hzero := ((hlast _).mp (Int.le_refl _)).1
  refine ⟨⟨u, hcounts⟩, ?_, ?_, fun u' hu' id hid => ?_⟩
  · rw [numbersOf_eq hcounts, numbersOf_eq h]
    exact hids
  · rw [KeepsLast, lastNumber_eq hcounts, lastNumber_eq h, numbersOf_eq h, not_or,
      ← Int.le_sub_one_iff, hlast]
    constructor
    · rintro ⟨hpos, hrows⟩
      refine ⟨by omega, fun hmem => ?_⟩
      obtain ⟨r, hr, heq⟩ := List.mem_map.mp hmem
      have := hrows r hr
      omega
    · rintro ⟨hpos, hmem⟩
      refine ⟨by omega, fun r hr => ?_⟩
      have hle := h.le_lastGiven r hr
      have hne : r.id ≠ s.database.lastGiven t.name := fun heq =>
        hmem (heq ▸ List.mem_map_of_mem hr)
      omega
  · obtain rfl := Option.some.inj (hu'.symm.trans hcounts.found)
    rw [lastNumber_eq hcounts]
    exact hcounts.nextId_eq hzero hid

/-- **Numbers of rows.** Take a table that counts its rows. Along any history in which no number is
given by hand and each rebuild finds the row of the last number, no number is given twice. A rebuild
keeps the numbers of the rows that are there; it forgets the last number just if its row is not
there, and then the next number is not behind it. -/
theorem given_once (h : s.database.Counts table key t) :
    (∀ changes, Along table (Change.IsFree table key) s changes →
      Along table (Change.IsTimely table) s changes → (given table s changes).Nodup) ∧
    ∀ m : Model, m.IsPlain table → m.Numbers key → ∀ count,
      (Blueprint.rebuildTable table m s).2 = .ok (count + 1) →
        Renumbers table key s.database (Blueprint.rebuildTable table m s).1.database :=
  ⟨fun _ hfree htimely => (given_spec h hfree htimely).1,
    fun _ hplain hm _ hok => renumbers_of_rebuildTable h hplain hm hok⟩

/-- A session on a table whose rows are numbered. -/
def counted : Session :=
  .start ⟨[⟨"t", [⟨"_id", .integer, true, some .autoincrement, .const .null⟩,
    ⟨"mts", .integer, false, none, .const .null⟩], [], []⟩], [], [], some [], 0⟩ 0

/-- The session behind it where the first of two rows is left. -/
def halved : Session :=
  .start ⟨[⟨"t", [⟨"_id", .integer, true, some .autoincrement, .const .null⟩,
    ⟨"mts", .integer, false, none, .const .null⟩], [], [⟨1, [.int 1, .int 5]⟩]⟩], [], [],
    some [("t", 2)], 0⟩ 0

/-- A row comes. -/
def comes (mts : Int) : Change :=
  .write (.insert "t" (some ["mts"]) [[.const (.int mts)]])

/-- The row of a number goes. -/
def goes (id : Int) : Change :=
  .write (.delete "t" (some (.binary .eq (.column .current "_id") (.const (.int id)))))

theorem numbers_numbered : Blueprint.numbered.Numbers "_id" :=
  ⟨⟨"_id", .idPrimaryKey⟩, .head _, rfl, rfl⟩

/-- The table is as its model makes it. -/
theorem counts_counted : ∃ t, counted.database.Counts "t" "_id" t := by
  have hmade : (Statement.createTable true "t" Blueprint.numbered.columns []).run
      (.start .empty 0) true = .ok counted :=
    of_toOption (by decide +kernel)
  exact counts_of_run_createTable Blueprint.isPlain_numbered numbers_numbered rfl rfl hmade

theorem counts_halved : ∃ t, halved.database.Counts "t" "_id" t := by
  have hcolumns : (TableParts.ofColumns (Blueprint.numbered.columns.map Column.parts) []).columns
      = [⟨"_id", .integer, true, some .autoincrement, .const .null⟩,
        ⟨"mts", .integer, false, none, .const .null⟩] :=
    rfl
  refine ⟨_, rfl, isCounting_of_model numbers_numbered
    (hcolumns ▸ gives_ofColumns Blueprint.numbered.columns []) (by decide +kernel)
    (by decide +kernel), by decide, fun r hr => ?_, by decide +kernel⟩
  obtain rfl := List.mem_singleton.mp hr
  exact .cons (fun _ => rfl) (.cons nofun .nil)

/-- Where the last row is there, numbers go on behind a rebuild. Where it is not, the next row has
its number. -/
theorem given_once_counted :
    given "t" counted [comes 5, comes 6, goes 1, .rebuild Blueprint.numbered, comes 7] = [1, 2, 3] ∧
      ([1, 2, 3] : List Int).Nodup ∧
      [comes 5, comes 6, goes 2].foldl (Change.leave "t") counted = halved ∧
      lastNumber "t" halved.database = 2 ∧
      lastNumber "t" (Blueprint.rebuildTable "t" Blueprint.numbered halved).1.database < 2 ∧
      given "t" counted [comes 5, comes 6, goes 2, .rebuild Blueprint.numbered, comes 7]
        = [1, 2, 2] := by
  obtain ⟨t, hcounted⟩ := counts_counted
  obtain ⟨u, hhalved⟩ := counts_halved
  have hgiven : given "t" counted [comes 5, comes 6, goes 1, .rebuild Blueprint.numbered, comes 7]
      = [1, 2, 3] := by
    decide +kernel
  have hlast : lastNumber "t" halved.database = 2 := by decide +kernel
  have hfree : Along "t" (Change.IsFree "t" "_id") counted
      [comes 5, comes 6, goes 1, .rebuild Blueprint.numbered, comes 7] := by
    refine ⟨?_, ?_, ?_, ⟨Blueprint.isPlain_numbered, numbers_numbered⟩, ?_, trivial⟩
    all_goals
      change ∀ t ∈ _, _
      decide +kernel
  have htimely : Along "t" (Change.IsTimely "t") counted
      [comes 5, comes 6, goes 1, .rebuild Blueprint.numbered, comes 7] := by
    refine ⟨trivial, trivial, trivial, ?_, trivial, trivial⟩
    change KeepsLast _ _
    decide +kernel
  have hok : (Blueprint.rebuildTable "t" Blueprint.numbered halved).2 = .ok (3 + 1) := by
    decide +kernel
  obtain ⟨hnodup, -⟩ := given_once hcounted
  obtain ⟨-, hrebuild⟩ := given_once hhalved
  have hrenumbers :=
    hrebuild Blueprint.numbered Blueprint.isPlain_numbered numbers_numbered 3 hok
  refine ⟨hgiven, hgiven ▸ hnodup _ hfree htimely, by decide +kernel, hlast, ?_, by decide +kernel⟩
  rw [← hlast, hrenumbers.forgets]
  decide +kernel

end RowNumbers

end AccountHistory
