import AccountHistory.Proofs.CheckpointTable

/-!
# Writing checkpoints

What becomes of the rows when an entry is added or changed.

* `newRow_eq` says what is given for a new row, and `newValues_eq` what its values are;
* `changedValues_report` and `changedValues_touch` are the values of a row that is changed, by a
  report and by the trigger of the table.
-/

namespace AccountHistory

open Store Sql

namespace Checkpoints

/-! ## Values looked up by name -/

/-- Among names with values, a name finds the value at its place. -/
theorem find?_zip (ns : List String) (vs : List Value) (h : ns.length = vs.length) (n : String) :
    ((ns.zip vs).find? fun a => Text.sameFold a.1 n).map Prod.snd
      = (ns.findIdx? fun m => Text.sameFold m n).bind (vs[·]?) := by
  induction ns generalizing vs with
  | nil => rfl
  | cons m ns ih =>
    cases vs with
    | nil => simp at h
    | cons v vs =>
      rw [List.zip_cons_cons, List.find?_cons, List.findIdx?_cons]
      cases hm : Text.sameFold m n with
      | true => simp
      | false =>
        have hrest := ih vs (by simpa using h)
        simp only [hrest]
        cases ns.findIdx? fun m => Text.sameFold m n <;> simp

/-- Leaving out what misses does not change the values found, where a name is given once. -/
theorem find?_filter_ne_null {pairs : List (String × Value)} {p : String × Value → Bool}
    (hunique : pairs.Pairwise fun a b => ¬(p a = true ∧ p b = true)) :
    (((pairs.filter fun a => a.2 != .null).find? p).map Prod.snd).getD .null
      = ((pairs.find? p).map Prod.snd).getD .null := by
  induction pairs with
  | nil => rfl
  | cons a rest ih =>
    rw [List.pairwise_cons] at hunique
    by_cases hp : p a = true
    · rw [List.find?_cons_of_pos hp]
      by_cases hnull : a.2 = .null
      · have hnone : (rest.filter fun a => a.2 != .null).find? p = none := by
          refine List.find?_eq_none.mpr fun b hb hpb => ?_
          exact hunique.1 b (List.mem_of_mem_filter hb) ⟨hp, hpb⟩
        rw [List.filter_cons_of_neg (by simp [hnull]), hnone]
        exact hnull.symm
      · rw [List.filter_cons_of_pos (by simp [hnull]), List.find?_cons_of_pos hp]
    · rw [List.find?_cons_of_neg hp, List.filter_cons]
      split
      · rw [List.find?_cons_of_neg hp, ih hunique.2]
      · exact ih hunique.2

/-! ## Values of rows -/

/-- The value given for a name. -/
def given (pairs : List (String × Value)) (n : String) : Option Value :=
  (pairs.find? fun a => Text.sameFold a.1 n).map Prod.snd

/-- The values of a new row where columns have none of their own. -/
theorem newValues_eq_map {t : Table} (hfallback : ∀ c ∈ t.columns, c.fallback = .const .null)
    (clock id : Int) (pairs : List (String × Value)) :
    Database.newValues clock t id pairs = t.columns.map fun c =>
      if c.key.isSome then .int id else c.affinity.store ((given pairs c.name).getD .null) := by
  refine List.map_congr_left fun c hc => ?_
  rw [given]
  cases pairs.find? fun a => Text.sameFold a.1 c.name with
  | none => simp only [hfallback c hc]; rfl
  | some a => rfl

theorem changedValues_eq_map (t : Table) (r : Row) (id : Int) (pairs : List (String × Value)) :
    Database.changedValues t r id pairs = (t.columns.zip r.values).map fun cv =>
      if cv.1.key.isSome then .int id
      else (given pairs.reverse cv.1.name).elim cv.2 cv.1.affinity.store := by
  refine List.map_congr_left ?_
  rintro ⟨c, v⟩ -
  dsimp only
  rw [given]
  cases pairs.reverse.find? fun a => Text.sameFold a.1 c.name <;> rfl

/-- What is given for the columns, each in its place. -/
theorem map_given_zip (ns : List String) (vs : List Value) (h : ns.length = vs.length) :
    columns.map (fun c => given (ns.zip vs) c.name)
      = (columns.map fun c => ns.findIdx? fun m => Text.sameFold m c.name).map
          (Option.bind · (vs[·]?)) := by
  rw [List.map_map]
  exact List.map_congr_left fun c _ => find?_zip ns vs h c.name

/-! ## New rows -/

/-- The columns of a report. -/
def reportColumns : List String :=
  ["user_id", "subUserId", "collName", "symbol", "timeframe"] ++ boundColumns
    ++ [madeColumn, changedColumn]

theorem newRow_eq (key : CheckpointKey) (range : SyncRange) (clock : Int) :
    newRow key range clock = reportColumns.zip
      [number (ownerId key.owner), number (subOwnerId key.owner), .text key.collection,
        .text key.symbol, .text (timeframeText key.timeframe), number range.baseFrom,
        number range.baseTo, number range.currFrom, number range.currTo, .int clock,
        .int clock] := by
  cases h : key.owner <;> simp [newRow, h, reportColumns, bounds, boundColumns, ownerId, subOwnerId]

@[simp] theorem store_number (n : Option Int) : Affinity.integer.store (number n) = number n := by
  cases n <;> rfl

/-- No column is given twice. -/
theorem newRow_distinct (key : CheckpointKey) (range : SyncRange) (clock : Int) (n : String) :
    (newRow key range clock).Pairwise fun a b =>
      ¬(Text.sameFold a.1 n = true ∧ Text.sameFold b.1 n = true) := by
  have hdistinct : reportColumns.Pairwise fun m n => Text.sameFold m n = false := by decide +kernel
  have hnames : (newRow key range clock).map Prod.fst = reportColumns := by
    rw [newRow_eq]
    rfl
  rw [← hnames, List.pairwise_map] at hdistinct
  refine hdistinct.imp fun {a b} hab hboth => ?_
  rw [Text.sameFold_congr hboth.1, Text.sameFold_comm, hboth.2] at hab
  cases hab

/-- The values of a new row are those of an entry. -/
theorem newValues_eq (clock id : Int) (rows : List Row) (key : CheckpointKey) (range : SyncRange) :
    Database.newValues clock (tableWith rows) id
        ((newRow key range clock).filter fun c => c.2 != .null)
      = (Entry.row ⟨id, placeOf key, range, .int clock, .int clock⟩).values := by
  have hplaces : columns.map (fun c => reportColumns.findIdx? fun m => Text.sameFold m c.name)
      = [none, some 0, some 1, some 2, some 3, some 4, some 5, some 6, some 7, some 8, some 9,
        some 10] := by decide +kernel
  have hfallback : ∀ c ∈ (tableWith rows).columns, c.fallback = .const .null := by
    simp [columns, column, boundColumns]
  -- a missing value that is not given is missing in the row too
  have hgiven (n : String) :
      (given ((newRow key range clock).filter fun c => c.2 != .null) n).getD .null
        = (given (newRow key range clock) n).getD .null :=
    find?_filter_ne_null (newRow_distinct key range clock n)
  -- every column finds its value by its place among the columns of a report
  have hmap := map_given_zip reportColumns [number (ownerId key.owner),
    number (subOwnerId key.owner), .text key.collection, .text key.symbol,
    .text (timeframeText key.timeframe), number range.baseFrom, number range.baseTo,
    number range.currFrom, number range.currTo, .int clock, .int clock] rfl
  rw [hplaces, ← newRow_eq] at hmap
  rw [newValues_eq_map hfallback]
  simp only [hgiven]
  simp only [columns_tableWith, columns, column, boundColumns, List.map_cons, List.map_nil,
    List.cons_append, List.nil_append, List.cons.injEq, and_true] at hmap ⊢
  obtain ⟨-, h₁, h₂, h₃, h₄, h₅, h₆, h₇, h₈, h₉, h₁₀, h₁₁⟩ := hmap
  simp only [h₁, h₂, h₃, h₄, h₅, h₆, h₇, h₈, h₉, h₁₀, h₁₁]
  simp [Entry.row, placeOf]

/-! ## Changed rows -/

/-- The assignments of a report give the row another range and another time of change. -/
theorem changedValues_report (rows : List Row) (e : Entry) (range : SyncRange) (clock : Int) :
    Database.changedValues (tableWith rows) e.row e.id
        (bounds range ++ [(changedColumn, .int clock)])
      = (Entry.row { e with range, changed := .int clock }).values := by
  have hplaces : columns.map (fun c => (boundColumns ++ [changedColumn]).reverse.findIdx?
        fun m => Text.sameFold m c.name)
      = [none, none, none, none, none, none, some 4, some 3, some 2, some 1, none, some 0] := by
    decide +kernel
  have hmap := map_given_zip (boundColumns ++ [changedColumn]).reverse [.int clock,
    number range.currTo, number range.currFrom, number range.baseTo, number range.baseFrom] rfl
  have hassigned : (boundColumns ++ [changedColumn]).reverse.zip [Value.int clock,
      number range.currTo, number range.currFrom, number range.baseTo, number range.baseFrom]
      = (bounds range ++ [(changedColumn, Value.int clock)]).reverse := rfl
  rw [hplaces, hassigned] at hmap
  rw [changedValues_eq_map]
  simp only [columns_tableWith, columns, column, boundColumns, List.map_cons, List.map_nil,
    List.cons_append, List.nil_append, List.cons.injEq, and_true] at hmap ⊢
  obtain ⟨-, h₁, h₂, h₃, h₄, h₅, h₆, h₇, h₈, h₉, h₁₀, h₁₁⟩ := hmap
  simp only [Entry.row, List.zip_cons_cons, List.zip_nil_right, List.map_cons, List.map_nil, h₁, h₂,
    h₃, h₄, h₅, h₆, h₇, h₈, h₉, h₁₀, h₁₁]
  simp

/-- The trigger gives a row another time of change. -/
theorem changedValues_touch (rows : List Row) (e : Entry) (v : Value) :
    Database.changedValues (tableWith rows) e.row e.id [(changedColumn, v)]
      = (Entry.row { e with changed := Affinity.integer.store v }).values := by
  have hplaces : columns.map (fun c => [changedColumn].findIdx? fun m => Text.sameFold m c.name)
      = [none, none, none, none, none, none, none, none, none, none, none, some 0] := by
    decide +kernel
  have hmap := map_given_zip [changedColumn] [v] rfl
  rw [hplaces] at hmap
  rw [changedValues_eq_map]
  simp only [columns_tableWith, columns, column, boundColumns, List.map_cons, List.map_nil,
    List.cons_append, List.nil_append, List.cons.injEq, and_true, List.zip_cons_cons,
    List.zip_nil_right] at hmap ⊢
  obtain ⟨-, h₁, h₂, h₃, h₄, h₅, h₆, h₇, h₈, h₉, h₁₀, h₁₁⟩ := hmap
  simp only [Entry.row, List.reverse_singleton, List.zip_cons_cons, List.zip_nil_right,
    List.map_cons, List.map_nil, h₁, h₂, h₃, h₄, h₅, h₆, h₇, h₈, h₉, h₁₀, h₁₁]
  simp

end Checkpoints

end AccountHistory
