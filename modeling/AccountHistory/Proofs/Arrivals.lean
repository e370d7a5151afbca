import Mathlib.Data.List.Nodup
import Mathlib.Data.List.Perm.Basic
import AccountHistory.Proofs.Conditions
import AccountHistory.Proofs.Objects
import AccountHistory.Proofs.Rows

/-!
# Rows that come to a table

What is in the rows that come to a table which no trigger watches and whose references are not
checked: each says what is given for its columns, as these store it, and all rows there were stay.
-/

namespace AccountHistory

open Sql

theorem Sql.Value.wholeIfExact_eq_null {v : Value} : v.wholeIfExact = .null ↔ v = .null := by
  cases v with
  | real x =>
    rw [Value.wholeIfExact]
    split
    · split <;> simp
    · simp
  | _ => simp [Value.wholeIfExact]

/-- Only what is missing is stored as missing. -/
theorem Sql.Affinity.store_eq_null {a : Affinity} {v : Value} : a.store v = .null ↔ v = .null := by
  cases a with
  | integer | numeric => rw [store, Value.wholeIfExact_eq_null, numbered_eq_null]
  | real =>
    rw [store]
    split
    case h_1 n hn =>
      have hv : v ≠ .null := by
        rintro rfl
        cases hn
      simp [hv]
    case h_2 => exact numbered_eq_null
  | text => exact texted_eq_null
  | blob => rfl

namespace Store

/-! ## Columns with names of their own -/

/-- No two columns have one name. -/
def DistinctNames (columns : List ColumnDef) : Prop :=
  (columns.map fun c => Text.fold c.name).Nodup

theorem distinctNames_of_repeatedName? {columns : List ColumnDef}
    (h : Database.repeatedName? (columns.map ColumnDef.name) = none) : DistinctNames columns := by
  induction columns with
  | nil => exact List.nodup_nil
  | cons c rest ih =>
    rw [List.map_cons, Database.repeatedName?] at h
    split at h
    · cases h
    case isFalse hfirst =>
      refine List.nodup_cons.mpr ⟨fun hmem => hfirst ?_, ih h⟩
      obtain ⟨d, hd, hsame⟩ := List.mem_map.mp hmem
      exact List.any_eq_true.mpr ⟨d.name, List.mem_map_of_mem hd, Text.sameFold_iff.mpr hsame.symm⟩

theorem DistinctNames.eq_of_sameFold {columns : List ColumnDef} (h : DistinctNames columns)
    {c d : ColumnDef} (hc : c ∈ columns) (hd : d ∈ columns)
    (hsame : Text.sameFold c.name d.name = true) : c = d :=
  List.inj_on_of_nodup_map h hc hd (Text.sameFold_iff.mp hsame)

namespace Table

variable {t : Table} {c : ColumnDef}

/-- A column is found at its place by its name. -/
theorem exists_columnIndex? (h : DistinctNames t.columns) (hc : c ∈ t.columns) :
    ∃ (i : Nat) (hi : i < t.columns.length),
      t.columnIndex? c.name = some i ∧ t.columns[i] = c := by
  have hsome : (t.columnIndex? c.name).isSome = true := by
    rw [columnIndex?, List.findIdx?_isSome, List.any_eq_true]
    exact ⟨c, hc, Text.sameFold_self _⟩
  obtain ⟨i, hindex⟩ := Option.isSome_iff_exists.mp hsome
  obtain ⟨hi, hsame, -⟩ := List.findIdx?_eq_some_iff_getElem.mp hindex
  exact ⟨i, hi, hindex, h.eq_of_sameFold (List.getElem_mem hi) hc hsame⟩

/-- The value of a column in a row that is made of a value for each column. -/
theorem value?_of_map (h : DistinctNames t.columns) (hc : c ∈ t.columns) {r : Row}
    {f : ColumnDef → Value} (hr : r.values = t.columns.map f) : t.value? r c.name = some (f c) := by
  obtain ⟨i, hi, hindex, hfound⟩ := exists_columnIndex? h hc
  rw [value?, hindex, Option.map_some, hr, List.getD_eq_getElem?_getD, List.getElem?_map,
    List.getElem?_eq_getElem hi, hfound]
  rfl

/-- A row that comes is put among the others. -/
theorem perm_putRow {r : Row} {rows : List Row} (h : ∀ s ∈ rows, s.id ≠ r.id) :
    (putRow r rows).Perm (r :: rows) := by
  induction rows with
  | nil => exact .refl _
  | cons s rest ih =>
    rw [putRow]
    split
    · exact .refl _
    · rw [if_neg (Ne.symm (h s (.head rest)))]
      exact ((ih fun s' hs' => h s' (.tail s hs')).cons s).trans (.swap r s rest)

end Table

namespace Database

variable {db db' : Database} {t : Table}

/-! ## Rows one after the other -/

/-- A row says what is given: its identifier is the one given, or one that is given out, and each
column has what is given for it. -/
structure Says (clock : Int) (t : Table) (given : List (String × Value)) (r : Row) : Prop where
  /-- the identifier -/
  id : Affinity.integer.store ((givenId? t given).getD .null) = .null ∨
    Affinity.integer.store ((givenId? t given).getD .null) = .int r.id
  /-- the values -/
  values : r.values = newValues clock t r.id given

theorem newId_ok {given : List (String × Value)} {id : Int} (h : db.newId t given = .ok id) :
    Affinity.integer.store ((givenId? t given).getD .null) = .null ∨
      Affinity.integer.store ((givenId? t given).getD .null) = .int id := by
  rw [newId] at h
  split at h
  case h_1 hnull => exact .inl hnull
  case h_2 n hint =>
    cases h
    exact .inr hint
  case h_3 => cases h

/-- Where a row has come, its identifier is a new one, and its values are those that are given. -/
theorem of_addRow {clock : Int} {given : List (String × Value)} {r : Row}
    (h : db.addRow clock t given = .ok (db', r)) :
    db.newId t given = .ok r.id ∧ r.values = newValues clock t r.id given ∧
      (∀ s ∈ t.rows, s.id ≠ r.id) ∧
      db' = if t.isAutoincrement then
          (db.withRows t.name (Table.putRow r t.rows)).give t.name r.id
        else db.withRows t.name (Table.putRow r t.rows) := by
  obtain ⟨id, hid, h⟩ := exists_of_bind h
  obtain ⟨-, -, h⟩ := exists_of_bind h
  obtain ⟨hfree, h⟩ := of_guard h
  obtain ⟨rfl, rfl⟩ := Prod.mk.inj (Except.ok.inj h)
  refine ⟨hid, rfl, fun s hs heq => ?_, rfl⟩
  exact hfree (List.find?_isSome.mpr ⟨s, hs, by simpa using heq⟩)

/-- A row that comes says what is given and has an identifier of its own. -/
theorem addRow_ok {clock : Int} {given : List (String × Value)} {r : Row}
    (h : db.addRow clock t given = .ok (db', r)) :
    Says clock t given r ∧ (∀ s ∈ t.rows, s.id ≠ r.id) ∧
      ∃ sequence, db' = { db.withRows t.name (Table.putRow r t.rows) with sequence } := by
  obtain ⟨hid, hvalues, hfree, rfl⟩ := of_addRow h
  refine ⟨⟨newId_ok hid, hvalues⟩, hfree, ?_⟩
  split
  · exact ⟨_, rfl⟩
  · exact ⟨_, rfl⟩

/-- Nothing follows a change that no trigger waits for, where references are not checked. -/
theorem react_of_idle {terms : Terms} (hchecked : terms.checked = false) (fuel : Nat)
    (active : List String) {change : RowChange}
    (hidle : db.triggersOn change.event change.table.name = []) :
    react terms (fuel + 1) active change db = .ok db := by
  rw [react]
  simp [hchecked, hidle]
  rfl

/-- The database has other rows in a table. Nothing else is new, but for identifiers given out. -/
structure Refills (db db' : Database) (table : String) (t : Table) (rows : List Row) : Prop where
  /-- the table -/
  table?_self : db'.table? table = some { t with rows }
  /-- all other tables -/
  table?_of_ne : ∀ n, Text.sameFold n table = false → db'.table? n = db.table? n
  /-- the triggers -/
  triggers : db'.triggers = db.triggers
  /-- the version -/
  version : db'.version = db.version

theorem refills_withRows {table : String} (htable : db.table? table = some t) (rows : List Row)
    (sequence : Option (List (String × Int))) :
    Refills db { db.withRows t.name rows with sequence } table t rows where
  table?_self := by
    change (db.withRows t.name rows).table? table = _
    rw [withRows_congr (sameFold_of_table? htable)]
    exact table?_withRows_self htable rows
  table?_of_ne := by
    intro n hn
    change (db.withRows t.name rows).table? n = _
    rw [withRows_congr (sameFold_of_table? htable)]
    exact table?_withRows_of_ne rows hn
  triggers := rfl
  version := rfl

/-- A row that comes to a table which passes none over has been added. -/
theorem of_addRows_cons {terms : Terms} {after : Reaction} {table : String} {columns : List String}
    {values : List Value} {rest : List (List Value)} (htable : db.table? table = some t)
    (hstrict : t.isLenient = false)
    (h : addRows terms after table columns (values :: rest) db = .ok db') :
    ∃ db₁ r db₂, db.addRow terms.clock t (columns.zip values) = .ok (db₁, r) ∧
      after ⟨.insert, t, none, some r⟩ db₁ = .ok db₂ ∧
      addRows terms after table columns rest db₂ = .ok db' := by
  rw [addRows, List.foldlM_cons] at h
  obtain ⟨db₂, hfirst, hrest⟩ := exists_of_bind h
  obtain ⟨u, hu, hfirst⟩ := exists_of_bind hfirst
  obtain rfl := Option.some.inj (htable.symm.trans (table?_of_getTable hu))
  rw [passedId?_of_strict hstrict] at hfirst
  obtain ⟨_, hnone, hfirst⟩ := exists_of_bind hfirst
  obtain rfl := Except.ok.inj hnone
  obtain ⟨⟨db₁, r⟩, hadded, hfollowed⟩ := exists_of_bind hfirst
  exact ⟨db₁, r, db₂, hadded, hfollowed, hrest⟩

/-- **Arrivals.** What is in the rows that come to a table which no trigger watches and which passes
none over, where references are not checked. -/
theorem addRows_of_idle {terms : Terms} (hchecked : terms.checked = false) {fuel : Nat}
    {table : String} {columns : List String} {rows : List (List Value)}
    (htable : db.table? table = some t) (hidle : db.triggersOn .insert t.name = [])
    (hstrict : t.isLenient = false) (hids : (t.rows.map Row.id).Nodup)
    (h : addRows terms (react terms (fuel + 1) []) table columns rows db = .ok db') :
    ∃ news, List.Forall₂ (fun values => Says terms.clock t (columns.zip values)) rows news ∧
      ∃ all, all.Perm (news ++ t.rows) ∧ (all.map Row.id).Nodup ∧ Refills db db' table t all := by
  induction rows generalizing db t with
  | nil =>
    obtain rfl := Except.ok.inj h
    exact ⟨[], .nil, t.rows, .refl _, hids, htable, fun _ _ => rfl, rfl, rfl⟩
  | cons values rest ih =>
    obtain ⟨db₁, r, db₂, hadded, hfollowed, h⟩ := of_addRows_cons htable hstrict h
    obtain ⟨hsaid, hfree, sequence, rfl⟩ := addRow_ok hadded
    have hfirst := refills_withRows htable (Table.putRow r t.rows) sequence
    -- no trigger waits, so the row comes and nothing else happens
    have hreact : react terms (fuel + 1) [] ⟨.insert, t, none, some r⟩
        { db.withRows t.name (Table.putRow r t.rows) with sequence }
        = .ok { db.withRows t.name (Table.putRow r t.rows) with sequence } :=
      react_of_idle hchecked fuel [] hidle
    obtain rfl := Except.ok.inj (hreact.symm.trans hfollowed)
    have hids' : ((Table.putRow r t.rows).map Row.id).Nodup := by
      rw [((Table.perm_putRow hfree).map Row.id).nodup_iff, List.map_cons, List.nodup_cons]
      refine ⟨fun hmem => ?_, hids⟩
      obtain ⟨s, hs, heq⟩ := List.mem_map.mp hmem
      exact hfree s hs heq
    -- the others come to a table that has this row too
    obtain ⟨news, hnews, all, hall, hnodup, hrest⟩ := ih hfirst.table?_self hidle hstrict hids' h
    -- what is said of a row depends on the columns of the table, not on its rows
    have hnews' := hnews.imp fun _ _ hsaid => (⟨hsaid.id, hsaid.values⟩ :
      Says terms.clock t _ _)
    refine ⟨r :: news, .cons hsaid hnews', all, ?_, hnodup, hrest.table?_self, ?_,
      hrest.triggers, hrest.version⟩
    · refine hall.trans (((Table.perm_putRow hfree).append_left news).trans ?_)
      exact List.perm_middle
    · intro n hn
      rw [hrest.table?_of_ne n hn, hfirst.table?_of_ne n hn]

/-- Rows that are inserted where references are not checked come one after the other. -/
theorem insert_ok {terms : Terms} (hchecked : terms.checked = false) {many : Bool} {table : String}
    {columns : List String} {rows : List (List Value)}
    (h : db.insert terms many table columns rows = .ok db') :
    ∃ t, db.table? table = some t ∧
      addRows terms (react terms maxDepth []) table columns rows (db.expecting t)
        = .ok db' := by
  obtain ⟨t, ht, h⟩ := exists_of_bind h
  refine ⟨t, table?_of_getTable ht, ?_⟩
  split at h
  · cases h
  · obtain ⟨-, -, h⟩ := exists_of_bind h
    obtain ⟨after, hafter, h⟩ := exists_of_bind h
    rw [settled, hchecked] at h
    rw [hafter]
    exact h

/-! ## What new rows say -/

/-- What a new row says of a column where each of some columns is given a value: this value, as the
column stores it, or the identifier of the row where the column is that and nothing is given, or
nothing. -/
def arrival (names : List String) (value : String → Value) (id : Int) (c : ColumnDef) : Value :=
  if c.name ∈ names ∧ (c.key = none ∨ value c.name ≠ .null) then c.affinity.store (value c.name)
  else if c.key.isSome then .int id
  else .null

section Saying

variable {clock : Int} {names : List String} {value : String → Value} {r : Row} {c : ColumnDef}

/-- What is given for a name is found by it. -/
theorem find?_given (names : List String) (value : String → Value) (p : String → Bool) :
    (names.zip (names.map value)).find? (fun a => p a.1)
      = (names.find? p).map fun n => (n, value n) := by
  rw [← List.map_prod_left_eq_zip, List.find?_map]
  rfl

/-- The last of what is given is found by its name. -/
theorem find?_reverse_given (names : List String) (value : String → Value) (p : String → Bool) :
    (names.zip (names.map value)).reverse.find? (fun a => p a.1)
      = (names.reverse.find? p).map fun n => (n, value n) := by
  rw [← List.map_prod_left_eq_zip, ← List.map_reverse, List.find?_map]
  rfl

/-- The value given for the column that is the identifier of rows. -/
theorem givenId?_given (hdistinct : DistinctNames t.columns)
    (hkey : ∀ d ∈ t.columns, d.key.isSome = true → d = c) (hnames : ∀ n ∈ names, n ∈ t.columnNames)
    (hc : c ∈ t.columns) (hisKey : c.key.isSome = true) (hgiven : c.name ∈ names) :
    givenId? t (names.zip (names.map value)) = some (value c.name) := by
  have hfind : names.reverse.find? (fun n => t.isKeyName n || t.isIdName n) = some c.name := by
    refine find?_eq_of_unique (List.mem_reverse.mpr hgiven) ?_ fun n hn hp => ?_
    · have hname : t.isKeyName c.name = true :=
        List.any_eq_true.mpr ⟨c, hc, by rw [hisKey, Text.sameFold_self]; rfl⟩
      rw [hname, Bool.true_or]
    · obtain ⟨d, hd, rfl⟩ := List.mem_map.mp (hnames n (List.mem_reverse.mp hn))
      have hcolumn : t.hasColumn d.name = true :=
        List.any_eq_true.mpr ⟨d, hd, Text.sameFold_self _⟩
      rw [Table.isIdName, hcolumn, Bool.not_true, Bool.false_and, Bool.or_false] at hp
      obtain ⟨e, he, hsame⟩ := List.any_eq_true.mp hp
      rw [Bool.and_eq_true] at hsame
      rw [hdistinct.eq_of_sameFold he hd hsame.2] at hsame
      rw [hkey d hd hsame.1]
  rw [givenId?, find?_reverse_given names value fun n => t.isKeyName n || t.isIdName n, hfind]
  rfl

/-- A new row says of each column what arrives there. -/
theorem Says.value?_eq (h : Says clock t (names.zip (names.map value)) r)
    (hdistinct : DistinctNames t.columns)
    (hkeys : ∀ c ∈ t.columns, ∀ d ∈ t.columns, c.key.isSome = true → d.key.isSome = true → d = c)
    (haffinity : ∀ c ∈ t.columns, c.key.isSome = true → c.affinity = .integer)
    (hfallback : ∀ c ∈ t.columns, c.fallback = .const .null)
    (hnames : ∀ n ∈ names, n ∈ t.columnNames) (hc : c ∈ t.columns) :
    t.value? r c.name = some (arrival names value r.id c) := by
  rw [Table.value?_of_map hdistinct hc h.values, arrival]
  congr 1
  by_cases hisKey : c.key.isSome = true
  · -- the column is the identifier
    rw [if_pos hisKey, if_pos hisKey]
    split
    case isFalse => rfl
    case isTrue hgiven =>
      obtain ⟨hmem, hvalue⟩ := hgiven
      have hid := h.id
      rw [givenId?_given hdistinct (fun d hd => hkeys c hc d hd hisKey) hnames hc hisKey hmem,
        Option.getD_some] at hid
      have hne : value c.name ≠ .null := by
        rcases hvalue with hnone | hne
        · rw [hnone] at hisKey
          cases hisKey
        · exact hne
      rw [haffinity c hc hisKey]
      rcases hid with hnull | hint
      · exact absurd (Affinity.store_eq_null.mp hnull) hne
      · exact hint.symm
  · have hnone : c.key = none := by simpa using hisKey
    -- any other column has what is given under its name, and nothing else is given under it
    rw [if_neg hisKey, if_neg hisKey, find?_given names value fun n => Text.sameFold n c.name]
    by_cases hmem : c.name ∈ names
    · have hfind : names.find? (fun n => Text.sameFold n c.name) = some c.name := by
        refine find?_eq_of_unique hmem (Text.sameFold_self _) fun n hn hsame => ?_
        obtain ⟨d, hd, rfl⟩ := List.mem_map.mp (hnames n hn)
        rw [hdistinct.eq_of_sameFold hd hc hsame]
      rw [hfind, if_pos ⟨hmem, .inl hnone⟩]
      rfl
    · have hfind : names.find? (fun n => Text.sameFold n c.name) = none := by
        refine List.find?_eq_none.mpr fun n hn hsame => hmem ?_
        obtain ⟨d, hd, rfl⟩ := List.mem_map.mp (hnames n hn)
        rwa [← hdistinct.eq_of_sameFold hd hc hsame]
      rw [hfind, if_neg fun h => hmem h.1]
      simp only [Option.map_none, hfallback c hc]
      exact Affinity.store_null _

end Saying

end Database

end Store

end AccountHistory
