import AccountHistory.Proofs.ByteOrder
import AccountHistory.Proofs.Lists
import AccountHistory.Schema.Difference

/-!
# Reports of differences

What is reported where tables are compared with their models, said without the comparison: which
differences there are, how often each is named, and in which order.

* `Database.Reports` is the report on one table. It either says that the table is not there, or it
  names the columns that the table lacks and then those that the model lacks;
* a comparison gives these reports in the order of the models, and no other list is such a report
  (`Database.mismatches_eq_iff`);
* nothing is reported exactly where every table is there with the columns of its model.
-/

namespace AccountHistory

/-! ## Parts of lists -/

section Parts

variable {α : Type} [BEq α] [LawfulBEq α] {l part : List α} {p : α → Bool}

theorem count_filter_eq (l : List α) (p : α → Bool) (a : α) :
    (l.filter p).count a = if p a then l.count a else 0 := by
  split
  case isTrue ha => exact List.count_filter ha
  case isFalse ha =>
    refine List.count_eq_zero.mpr fun hmem => ha ?_
    exact (List.mem_filter.mp hmem).2

/-- A part of a list that has those with a property as often as the list, and no others, is the part
of those with the property. -/
theorem eq_filter_of_sublist (hpart : part.Sublist l)
    (hcount : ∀ a, part.count a = if p a then l.count a else 0) : part = l.filter p := by
  have hperm : part.Perm (l.filter p) := by
    rw [List.perm_iff_count]
    intro a
    rw [hcount, count_filter_eq]
  have hkept : part.filter p = part := by
    rw [List.filter_eq_self]
    intro a ha
    exact (List.mem_filter.mp (hperm.mem_iff.mp ha)).2
  refine List.Sublist.eq_of_length ?_ hperm.length_eq
  rw [← hkept]
  exact hpart.filter p

end Parts

namespace Store.Database

variable {db : Database} {table c : String} {m : Model} {models : List (String × Model)}
  {report : List Mismatch}

/-! ## Columns of a table -/

/-- The names are in the order of their bytes, and none is there twice. -/
def IsSorted (names : List String) : Prop :=
  names.Pairwise fun c d => Text.bytes c < Text.bytes d

/-- Names are sorted in one way only. -/
theorem IsSorted.eq {l l' : List String} (hl : IsSorted l) (hl' : IsSorted l')
    (hmem : ∀ c, c ∈ l ↔ c ∈ l') : l = l' := by
  simp only [IsSorted, Text.bytes_lt_bytes_iff] at hl hl'
  have hperm : l.Perm l' :=
    (List.perm_ext_iff_of_nodup (hl.imp ne_of_lt) (hl'.imp ne_of_lt)).mpr hmem
  exact hperm.eq_of_pairwise (fun _ _ _ _ hcd hdc => absurd hdc (lt_asymm hcd)) hl hl'

theorem mem_columnSet : c ∈ db.columnSet table ↔ c ∈ db.columnsOf table := by
  rw [columnSet, List.mem_eraseDups, List.mem_mergeSort]

theorem isSorted_columnSet (db : Database) (table : String) : IsSorted (db.columnSet table) := by
  have hle : ((db.columnsOf table).mergeSort (· ≤ ·)).Pairwise (· ≤ ·) := by
    refine (List.pairwise_mergeSort ?_ ?_ _).imp of_decide_eq_true
    · intro c d e hcd hde
      simp only [decide_eq_true_eq] at *
      exact le_trans hcd hde
    · intro c d
      simpa using le_total c d
  refine ((hle.sublist (eraseDups_sublist _)).and (nodup_eraseDups _)).imp ?_
  rintro c d ⟨hcd, hne⟩
  exact Text.bytes_lt_bytes_iff.mpr (lt_of_le_of_ne hcd hne)

/-! ## One table -/

/-- The report on a table and its model. -/
inductive Reports (db : Database) (table : String) (m : Model) : List Mismatch → Prop
  /-- the table is not listed, and nothing is said of its columns -/
  | absent (habsent : table ∉ db.sortedTables) : Reports db table m [.missingTable table]
  /-- the columns of the model that the table lacks are named in the order of the model, each as
  often as there, and behind them, sorted, those of the table that the model lacks -/
  | present {lacking unknown : List String} (hlisted : table ∈ db.sortedTables)
    (hlacking : lacking.Sublist m.columnNames)
    (hcount : ∀ c, lacking.count c = if c ∈ db.columnsOf table then 0 else m.columnNames.count c)
    (hsorted : IsSorted unknown)
    (hunknown : ∀ c, c ∈ unknown ↔ c ∈ db.columnsOf table ∧ c ∉ m.columnNames) :
    Reports db table m
      (lacking.map (.missingColumn table) ++ unknown.map (.unexpectedColumn table))

theorem mismatchesOf_of_not_listed (h : table ∉ db.sortedTables) :
    db.mismatchesOf table m = [.missingTable table] := by
  rw [mismatchesOf, if_pos (by simpa using h)]

theorem mismatchesOf_of_listed (h : table ∈ db.sortedTables) : db.mismatchesOf table m =
    (m.columnNames.filter fun c => c ∉ db.columnsOf table).map (.missingColumn table)
      ++ ((db.columnSet table).filter fun c => c ∉ m.columnNames).map (.unexpectedColumn table) := by
  rw [mismatchesOf, if_neg (by simpa using h)]
  simp [← Model.hasColumn_iff, ← mem_columnSet]

/-- The comparison of a table with its model gives the report on them, and there is no other. -/
theorem mismatchesOf_eq_iff : db.mismatchesOf table m = report ↔ db.Reports table m report := by
  constructor
  · rintro rfl
    by_cases h : table ∈ db.sortedTables
    · rw [mismatchesOf_of_listed h]
      refine .present h List.filter_sublist (fun c => ?_) ?_ fun c => ?_
      · rw [count_filter_eq]
        simp [ite_not]
      · exact (isSorted_columnSet db table).filter _
      · simp [mem_columnSet]
    · rw [mismatchesOf_of_not_listed h]
      exact .absent h
  · intro h
    cases h with
    | absent habsent => exact mismatchesOf_of_not_listed habsent
    | present hlisted hlacking hcount hsorted hunknown =>
      rw [mismatchesOf_of_listed hlisted]
      congr 2
      · refine (eq_filter_of_sublist hlacking fun c => ?_).symm
        rw [hcount]
        simp [ite_not]
      · refine IsSorted.eq ((isSorted_columnSet db table).filter _) hsorted fun c => ?_
        rw [hunknown]
        simp [mem_columnSet]

/-- Nothing is reported of a table that is listed and has the columns of its model. -/
theorem mismatchesOf_eq_nil_iff : db.mismatchesOf table m = [] ↔
    table ∈ db.sortedTables ∧ ∀ c, c ∈ db.columnsOf table ↔ c ∈ m.columnNames := by
  by_cases h : table ∈ db.sortedTables
  · rw [mismatchesOf_of_listed h, and_iff_right h]
    simp only [List.append_eq_nil_iff, List.map_eq_nil_iff, List.filter_eq_nil_iff, mem_columnSet,
      decide_eq_true_eq, not_not]
    constructor
    · rintro ⟨hlacking, hunknown⟩ c
      exact ⟨hunknown c, hlacking c⟩
    · intro hsame
      exact ⟨fun c => (hsame c).mpr, fun c => (hsame c).mp⟩
  · simp [mismatchesOf_of_not_listed h, h]

/-! ## Several tables -/

/-- The comparison gives the reports on the tables one after the other, and there is no other such
list. -/
theorem mismatches_eq_iff : db.mismatches models = report ↔
    ∃ parts, List.Forall₂ (fun p part => db.Reports p.1 p.2 part) models parts ∧
      parts.flatten = report := by
  have hparts : ∀ parts,
      List.Forall₂ (fun p part => db.Reports p.1 p.2 part) models parts ↔
        models.map (fun p => db.mismatchesOf p.1 p.2) = parts := by
    intro parts
    simp only [← mismatchesOf_eq_iff]
    rw [← List.forall₂_map_left_iff (R := (· = ·)), List.forall₂_eq_eq_eq]
  simp only [hparts, exists_eq_left', mismatches, List.flatMap_def]

/-- **Differences.** A comparison gives the reports on the tables in the order of the models, and no
other list is made of such reports: a table that is not there is named and nothing else, and of any
other one each column that only the model has, in the order of the model, and then each that only
the table has, in the order of bytes. Nothing is reported if and only if every table is there and
has the columns of its model, in any order. -/
theorem mismatches_reports (db : Database) (models : List (String × Model)) :
    (∀ report, db.mismatches models = report ↔
      ∃ parts, List.Forall₂ (fun p part => db.Reports p.1 p.2 part) models parts ∧
        parts.flatten = report) ∧
    (db.mismatches models = [] ↔ ∀ p ∈ models, p.1 ∈ db.sortedTables ∧
      ∀ c, c ∈ db.columnsOf p.1 ↔ c ∈ p.2.columnNames) := by
  refine ⟨fun report => mismatches_eq_iff, ?_⟩
  simp only [mismatches, List.flatMap_eq_nil_iff, mismatchesOf_eq_nil_iff]

end Store.Database

end AccountHistory
