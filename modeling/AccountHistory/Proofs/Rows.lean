import Mathlib.Data.List.Basic
import AccountHistory.Proofs.Lists
import AccountHistory.Store.Change

/-!
# Rows of tables

How tables are found when the rows of one are replaced, and where a row is put among others.
-/

namespace AccountHistory

/-! ## Names -/

namespace Text

theorem sameFold_iff {s t : String} : sameFold s t = true ↔ fold s = fold t := by
  rw [sameFold, beq_iff_eq]

theorem map_small_of_sameFold {s t : String} (h : sameFold s t = true) :
    s.toList.map small = t.toList.map small := by
  have hfold := congrArg String.toList (sameFold_iff.mp h)
  simpa [fold] using hfold

@[simp] theorem sameFold_self (s : String) : sameFold s s = true :=
  sameFold_iff.mpr rfl

theorem sameFold_comm (s t : String) : sameFold s t = sameFold t s := by
  rw [Bool.eq_iff_iff, sameFold_iff, sameFold_iff]
  exact eq_comm

/-- Texts that agree up to case agree with the same texts. -/
theorem sameFold_congr {s t : String} (h : sameFold s t = true) (u : String) :
    sameFold s u = sameFold t u := by
  rw [Bool.eq_iff_iff, sameFold_iff, sameFold_iff, sameFold_iff.mp h]

end Text

namespace Store

open Sql

/-! ## Tables with other rows -/

namespace Database

variable {db : Database} {t : Table} {n : String}

theorem sameFold_of_table? (h : db.table? n = some t) : Text.sameFold t.name n = true := by
  have hname := List.find?_some h
  exact hname

theorem getTable_of_table? (h : db.table? n = some t) : db.getTable n = .ok t := by
  rw [getTable, h]

theorem table?_of_getTable (h : db.getTable n = .ok t) : db.table? n = some t := by
  rw [getTable] at h
  split at h
  case h_1 u hu => rw [hu, Except.ok.inj h]
  case h_2 => cases h

@[simp] theorem indexes_withRows (rows : List Row) : (db.withRows n rows).indexes = db.indexes := rfl

@[simp] theorem triggers_withRows (rows : List Row) :
    (db.withRows n rows).triggers = db.triggers := rfl

@[simp] theorem version_withRows (rows : List Row) : (db.withRows n rows).version = db.version := rfl

@[simp] theorem sequence_withRows (rows : List Row) :
    (db.withRows n rows).sequence = db.sequence := rfl

@[simp] theorem withRows_withRows (rows rows' : List Row) :
    (db.withRows n rows).withRows n rows' = db.withRows n rows' := by
  simp only [withRows, List.map_map, mk.injEq, and_true]
  refine List.map_congr_left fun t _ => ?_
  by_cases h : Text.sameFold t.name n <;> simp [h]

/-- Replacing the rows of a table changes those of that table alone. -/
theorem table?_withRows (rows : List Row) (m : String) :
    (db.withRows n rows).table? m
      = (db.table? m).map fun t => if Text.sameFold t.name n then { t with rows } else t := by
  have hname : (fun t : Table => Text.sameFold t.name m)
      ∘ (fun t => if Text.sameFold t.name n then { t with rows } else t)
      = fun t => Text.sameFold t.name m := by
    funext t
    rw [Function.comp_apply]
    by_cases h : Text.sameFold t.name n = true
    · rw [if_pos h]
    · rw [if_neg h]
  rw [table?, withRows, List.find?_map, hname, table?]

/-- A table with other rows is found in its place. -/
theorem table?_withRows_self (h : db.table? n = some t) (rows : List Row) :
    (db.withRows n rows).table? n = some { t with rows } := by
  rw [table?_withRows, h, Option.map_some, if_pos (sameFold_of_table? h)]

/-- All other tables are found as they were. -/
theorem table?_withRows_of_ne (rows : List Row) {m : String} (h : Text.sameFold m n = false) :
    (db.withRows n rows).table? m = db.table? m := by
  rw [table?_withRows]
  cases hm : db.table? m with
  | none => rfl
  | some t =>
    have hname := Text.sameFold_congr (sameFold_of_table? hm) n
    rw [Option.map_some, hname, h]
    rfl

theorem withRows_congr {m : String} (h : Text.sameFold n m = true) (rows : List Row) :
    db.withRows n rows = db.withRows m rows := by
  simp only [withRows, Text.sameFold_comm _ n, Text.sameFold_comm _ m, Text.sameFold_congr h]

@[simp] theorem table?_give (id : Int) (m : String) : (db.give n id).table? m = db.table? m := rfl

@[simp] theorem indexes_give (id : Int) : (db.give n id).indexes = db.indexes := rfl

@[simp] theorem triggers_give (id : Int) : (db.give n id).triggers = db.triggers := rfl

/-- An identifier is noted beside the tables. -/
@[simp] theorem table?_noting (id : Int) (m : String) : (db.noting t id).table? m = db.table? m := by
  rw [noting]
  split <;> rfl

@[simp] theorem triggers_noting (id : Int) : (db.noting t id).triggers = db.triggers := by
  rw [noting]
  split <;> rfl

@[simp] theorem version_noting (id : Int) : (db.noting t id).version = db.version := by
  rw [noting]
  split <;> rfl

end Database

/-! ## Rows in order -/

namespace Table

/-- A row that comes after all others is put behind them. -/
theorem putRow_of_forall_lt {r : Row} {rows : List Row} (h : ∀ s ∈ rows, s.id < r.id) :
    putRow r rows = rows ++ [r] := by
  induction rows with
  | nil => rfl
  | cons s rest ih =>
    have hs := h s (.head rest)
    rw [putRow, if_neg (by omega), if_neg (by omega), ih fun s' hs' => h s' (.tail s hs'),
      List.cons_append]

/-- A row that comes before all others is put in front of them. -/
theorem putRow_of_forall_gt {r : Row} {rows : List Row} (h : ∀ s ∈ rows, r.id < s.id) :
    putRow r rows = r :: rows := by
  cases rows with
  | nil => rfl
  | cons s rest => rw [putRow, if_pos (h s (.head rest))]

/-- A row that gives way to one of its identifier leaves its place to it. -/
theorem putRow_filter_ne {r : Row} {rows : List Row} (hsorted : rows.Pairwise (·.id < ·.id))
    (hmem : ∃ s ∈ rows, s.id = r.id) :
    putRow r (rows.filter (·.id != r.id)) = rows.map fun s => if s.id = r.id then r else s := by
  induction rows with
  | nil => simp at hmem
  | cons s rest ih =>
    rw [List.pairwise_cons] at hsorted
    by_cases hs : s.id = r.id
    · have hrest : ∀ s' ∈ rest, r.id < s'.id := fun s' hs' => hs ▸ hsorted.1 s' hs'
      have hkept : rest.filter (·.id != r.id) = rest := by
        refine List.filter_eq_self.mpr fun s' hs' => ?_
        have := hrest s' hs'
        rw [bne_iff_ne]
        omega
      have hmap : rest.map (fun s' => if s'.id = r.id then r else s') = rest := by
        refine (List.map_congr_left fun s' hs' => ?_).trans (List.map_id rest)
        have := hrest s' hs'
        rw [if_neg (by omega), id]
      rw [List.filter_cons_of_neg (by simp [hs]), hkept, putRow_of_forall_gt hrest, List.map_cons,
        if_pos hs, hmap]
    · have hmem' : ∃ s' ∈ rest, s'.id = r.id := by
        obtain ⟨s', hs', heq⟩ := hmem
        rcases List.mem_cons.mp hs' with rfl | hs'
        · exact absurd heq hs
        · exact ⟨s', hs', heq⟩
      obtain ⟨s', hs', heq⟩ := hmem'
      have hlt := hsorted.1 s' hs'
      rw [List.filter_cons_of_pos (by simp [hs]), putRow, if_neg (by omega), if_neg (by omega),
        ih hsorted.2 ⟨s', hs', heq⟩, List.map_cons, if_neg hs]

end Table

/-! ## Steps on single rows -/

namespace Database

variable {db : Database} {t : Table} {clock id : Int}

/-- A row that is admitted and has a new identifier comes. -/
theorem addRow_eq {given : List (String × Value)} {r : Row} (hid : db.newId t given = .ok r.id)
    (hvalues : newValues clock t r.id given = r.values) (hadmits : db.admits clock t r = .ok ())
    (hfree : t.row? r.id = none) :
    db.addRow clock t given = .ok
      (if t.isAutoincrement then (db.withRows t.name (Table.putRow r t.rows)).give t.name r.id
        else db.withRows t.name (Table.putRow r t.rows), r) := by
  rw [addRow, hid]
  change (db.admits clock t ⟨r.id, newValues clock t r.id given⟩ >>= _) = _
  rw [hvalues, hadmits]
  simp only [bind, Except.bind, pure, Except.pure, hfree, Option.isSome_none, Bool.false_eq_true,
    if_false]

/-- A row that is admitted beside the others and has an identifier that they have not, comes in the
place of another. -/
theorem replaceRow_eq {r s : Row} {assignments : List (String × Value)}
    (hnames : t.unsettable? (assignments.map Prod.fst) = none)
    (hid : changedId t r assignments = .ok s.id)
    (hvalues : changedValues t r s.id assignments = s.values)
    (hadmits : db.admits clock { t with rows := t.rowsBut r.id } s = .ok ())
    (hfree : ({ t with rows := t.rowsBut r.id } : Table).row? s.id = none) :
    db.replaceRow clock t r assignments
      = .ok (db.withRows t.name (Table.putRow s (t.rowsBut r.id)), s) := by
  rw [replaceRow, hnames, hid]
  change (db.admits clock { t with rows := t.rowsBut r.id }
    ⟨s.id, changedValues t r s.id assignments⟩ >>= _) = _
  rw [hvalues, hadmits]
  simp only [bind, Except.bind, pure, Except.pure, hfree, Option.isSome_none, Bool.false_eq_true,
    if_false]

/-! ## Statements on rows -/

/-- An update of columns that are there. -/
theorem update_eq {table : String} (htable : db.getTable table = .ok t) (terms : Terms)
    (pick : Table → Row → Bool) {assignments : List (String × Value)}
    (hnames : t.unsettable? (assignments.map Prod.fst) = none) :
    db.update terms table pick assignments = (do
      db.prepare terms true ⟨.update, table, assignments.map Prod.fst⟩
      let after ← changeRows terms (react terms maxDepth []) table pick
        (fun _ _ => assignments) db
      settled terms db after) := by
  rw [update, htable]
  simp only [bind, Except.bind, hnames]

/-- A table without a rule for it passes no row over that comes. -/
theorem passedId?_of_strict (h : t.isLenient = false) (db : Database) (terms : Terms)
    (given : List (String × Value)) : db.passedId? terms t given = .ok none := by
  rw [passedId?, h, Bool.and_false]
  rfl

/-- Nor one that gets new values. -/
theorem passesChange_of_strict (h : t.isLenient = false) (db : Database) (terms : Terms) (r : Row)
    (assignments : List (String × Value)) :
    db.passesChange terms t r assignments = .ok false := by
  rw [passesChange, h, Bool.and_false]
  rfl

/-- One row comes to a table that passes none over. -/
theorem addRows_singleton {table : String} (htable : db.getTable table = .ok t)
    (hstrict : t.isLenient = false) (terms : Terms) (after : Reaction) (columns : List String)
    (values : List Value) :
    addRows terms after table columns [values] db
      = (db.addRow terms.clock t (columns.zip values) >>= fun added =>
          after ⟨.insert, t, none, some added.2⟩ added.1) := by
  have hpassed := passedId?_of_strict hstrict db terms (columns.zip values)
  rw [addRows, List.foldlM_cons, htable]
  change ((db.passedId? terms t (columns.zip values) >>= _) >>= _) = _
  rw [hpassed]
  exact bind_pure _

/-- An insertion of rows that fit columns that are there. -/
theorem insert_eq {table : String} (htable : db.getTable table = .ok t) (terms : Terms)
    (many : Bool) {columns : List String} {rows : List (List Value)}
    (hrows : t.rowsFault? columns rows = none) :
    db.insert terms many table columns rows = (do
      db.prepare terms many ⟨.insert, table, []⟩
      let after ← addRows terms (react terms maxDepth []) table columns rows (db.expecting t)
      settled terms db after) := by
  rw [insert, htable]
  simp only [bind, Except.bind, hrows]

end Database

end Store

end AccountHistory
