import AccountHistory.Proofs.CheckpointLedger

/-!
# Insertions and updates of checkpoints

What an insertion and an update do to the ledger of the table, with all that they set off. A change
leaves the identifier of its row, so no reference is followed; the trigger of the table answers an
update with another one, which changes no more than the time, and does not answer itself.
-/

namespace AccountHistory

open Store Sql

namespace Checkpoints

variable {db : Database} {es : List Entry}

/-! ## Names -/

/-- Columns of a report are columns that do not identify rows. -/
theorem settable_of_mem (rows : List Row) {n : String} (h : n ∈ reportColumns) :
    (tableWith rows).hasColumn n = true ∧ (tableWith rows).isKeyName n = false ∧
      (tableWith rows).isIdName n = false := by
  have hall : ∀ n ∈ reportColumns, (tableWith []).hasColumn n = true ∧
      (tableWith []).isKeyName n = false ∧ (tableWith []).isIdName n = false := by
    decide +kernel
  exact hall n h

section Names

variable (rows : List Row) {pairs : List (String × Value)}

theorem unsettable?_eq_none (h : ∀ a ∈ pairs, a.1 ∈ reportColumns) :
    (tableWith rows).unsettable? (pairs.map Prod.fst) = none := by
  refine List.find?_eq_none.mpr fun n hn => ?_
  obtain ⟨a, ha, rfl⟩ := List.mem_map.mp hn
  simp [(settable_of_mem rows (h a ha)).1]

theorem givenId?_eq_none (h : ∀ a ∈ pairs, a.1 ∈ reportColumns) :
    Database.givenId? (tableWith rows) pairs = none := by
  have hfind : (pairs.reverse.find? fun a =>
      (tableWith rows).isKeyName a.1 || (tableWith rows).isIdName a.1) = none := by
    refine List.find?_eq_none.mpr fun a ha => ?_
    obtain ⟨-, hkey, hid⟩ := settable_of_mem rows (h a (List.mem_reverse.mp ha))
    simp [hkey, hid]
  rw [Database.givenId?, hfind]
  rfl

end Names

/-! ## Reactions -/

/-- A reaction to updates of single rows that does nothing as long as identifiers stay. -/
def IsIdle (after : Database.Reaction) : Prop :=
  ∀ (db : Database) (es : List Entry) (rows : List Row) (e e' : Entry), HasLedger db es →
    e.id = e'.id →
    after ⟨.update, tableWith rows, some e.row, some e'.row⟩ db = .ok db

/-- A change of no more than the time leaves what the entries say. -/
theorem changeRows_touch (h : HasLedger db es) {after : Database.Reaction} (hafter : IsIdle after)
    (terms : Terms) (pick : Table → Row → Bool) (value : Table → Row → Value) :
    Yields (db.changeRows terms after table pick fun t r => [(changedColumn, value t r)])
      fun db' => ∃ es', HasLedger db' es' ∧ Agree es' es := by
  have hstart : ∃ es', HasLedger db es' ∧ Agree es' es := ⟨es, h, rfl⟩
  rw [Database.changeRows, Database.getTable_of_table? h.rows.table]
  -- the invariant of the loop: the entries say what they said before it
  refine Yields.foldlM hstart ?_
  rintro db' ⟨es', h', hagree⟩ picked -
  rw [Database.getTable_of_table? h'.rows.table]
  simp only [bind, Except.bind]
  cases hrow : (tableWith (es'.map Entry.row)).row? picked.id with
  | none => exact ⟨es', h', hagree⟩
  | some r =>
    -- the row found is that of an entry, and only its time is new
    obtain ⟨e, he, rfl⟩ := exists_of_row? hrow
    have hnames : ∀ a ∈ [(changedColumn, value (tableWith (es'.map Entry.row)) e.row)],
        a.1 ∈ reportColumns := by
      simp [reportColumns]
    let e' : Entry :=
      { e with changed := Affinity.integer.store (value (tableWith (es'.map Entry.row)) e.row) }
    have hconsistent : e'.range.isConsistent = true := h'.ledger.consistent e he
    have hreplace := h'.replaceRow_eq (n := e') he rfl rfl hconsistent terms.clock
      (unsettable?_eq_none _ hnames) (givenId?_eq_none _ hnames) (changedValues_touch _ e _)
    have hput := h'.put (n := e') he rfl rfl hconsistent
    have hagree' : Agree (put e' es') es := (agree_put h'.ledger (n := e') he rfl).trans hagree
    refine Yields.of_eq ?_ ⟨put e' es', hput, hagree'⟩
    simp only [Database.passesChange_of_strict (isLenient_tableWith _), hreplace]
    exact hafter _ _ _ e e' hput rfl

/-- All that follows an update of a row is the action of the trigger of the table, unless it is
acting already. -/
theorem react_eq (h : HasLedger db es) (terms : Terms) (fuel : Nat) (active : List String)
    (rows : List Row) {e e' : Entry} (hid : e.id = e'.id) :
    Database.react terms (fuel + 1) active ⟨.update, tableWith rows, some e.row, some e'.row⟩ db
      = ([touch].filter fun g => !active.contains g.name && RowChange.sets
            ⟨.update, tableWith rows, some e.row, some e'.row⟩ terms.clock g).foldlM (fun db g =>
          g.actions.foldlM (Database.act (terms.behind .update)
            (Database.react (terms.behind .update) fuel (g.name :: active))
            ⟨.update, tableWith rows, some e.row, some e'.row⟩) db) db := by
  have hon : db.triggersOn .update (tableWith rows).name = [touch] := h.rows.triggersOn .update
  rw [Database.react]
  split
  · rw [followReferences_eq h.rows hid]
    change List.foldlM _ _ ((db.triggersOn .update (tableWith rows).name).filter _) = _
    rw [hon]
  · change List.foldlM _ _ ((db.triggersOn .update (tableWith rows).name).filter _) = _
    rw [hon]

/-- The trigger of the table does not answer itself. -/
theorem isIdle_react (terms : Terms) (fuel : Nat) :
    IsIdle (Database.react terms (fuel + 1) [touch.name]) := by
  intro db es rows e e' h hid
  rw [react_eq h terms fuel _ rows hid, List.filter_cons_of_neg (by simp)]
  rfl

/-- What follows an update of a row leaves what the entries say. -/
theorem react_update (h : HasLedger db es) (terms : Terms) (fuel : Nat) (rows : List Row)
    {e e' : Entry} (hid : e.id = e'.id) :
    Yields (Database.react terms (fuel + 2) [] ⟨.update, tableWith rows, some e.row, some e'.row⟩ db)
      fun db' => ∃ es', HasLedger db' es' ∧ Agree es' es := by
  rw [react_eq h terms (fuel + 1) [] rows hid]
  refine Yields.foldlM ⟨es, h, rfl⟩ ?_
  rintro db' ⟨es', h', hagree⟩ g hg
  obtain rfl : g = touch := List.mem_singleton.mp (List.mem_of_mem_filter hg)
  refine Yields.foldlM ⟨es', h', hagree⟩ ?_
  rintro db'' ⟨es'', h'', hagree'⟩ action haction
  obtain rfl := List.mem_singleton.mp haction
  refine (changeRows_touch h'' (isIdle_react (terms.behind .update) fuel) _ _ _).imp ?_
  rintro db₃ ⟨es₃, h₃, hagree''⟩
  exact ⟨es₃, h₃, hagree''.trans hagree'⟩

/-! ## Updates -/

/-- One entry has an identifier. -/
theorem filter_eq_singleton (h : IsLedger es) {e : Entry} (he : e ∈ es) :
    es.filter (fun o => o.id = e.id) = [e] := by
  obtain ⟨before, after, rfl⟩ := List.append_of_mem he
  have hascending := h.ascending
  rw [List.pairwise_append, List.pairwise_cons] at hascending
  obtain ⟨-, ⟨hafter, -⟩, hbefore⟩ := hascending
  -- identifiers rise, so those before are smaller and those after are greater
  have hbefore' : before.filter (fun o => o.id = e.id) = [] := by
    refine List.filter_eq_nil_iff.mpr fun o ho => ?_
    have := hbefore o ho e (.head after)
    rw [decide_eq_true_eq]
    omega
  have hafter' : after.filter (fun o => o.id = e.id) = [] := by
    refine List.filter_eq_nil_iff.mpr fun o ho => ?_
    have := hafter o ho
    rw [decide_eq_true_eq]
    omega
  rw [List.filter_append, List.filter_cons_of_pos (by simp), hbefore', hafter', List.nil_append]

/-- The row of an entry gets another range, and no other row does. -/
theorem changeRows_report (h : HasLedger db es) {e : Entry} (he : e ∈ es) {range : SyncRange}
    (hrange : range.isConsistent = true) (terms : Terms) (fuel : Nat) :
    Yields (db.changeRows terms (Database.react terms (fuel + 2) []) table
        (fun t r => isEqual t r idColumn (.int e.id))
        fun _ _ => bounds range ++ [(changedColumn, .int terms.clock)])
      fun db' => ∃ es', HasLedger db' es' ∧ Agree es' (put { e with range } es) := by
  let e' : Entry := { e with range, changed := .int terms.clock }
  have hnames : ∀ a ∈ bounds range ++ [(changedColumn, Value.int terms.clock)],
      a.1 ∈ reportColumns := by
    simp [bounds, boundColumns, reportColumns]
  -- the condition picks the row of the entry alone
  have hpicked : (tableWith (es.map Entry.row)).rows.filter (fun r =>
      isEqual (tableWith (es.map Entry.row)) r idColumn (.int e.id)) = [e.row] := by
    have hequal : ((fun r => isEqual (tableWith (es.map Entry.row)) r idColumn (.int e.id))
        ∘ Entry.row) = fun o => decide (o.id = e.id) := by
      funext o
      exact (isEqual_int _ o e.id).1
    rw [rows_tableWith, List.filter_map, hequal, filter_eq_singleton h.ledger he]
    rfl
  have hreplace := h.replaceRow_eq (n := e') he rfl rfl hrange terms.clock
    (unsettable?_eq_none _ hnames) (givenId?_eq_none _ hnames) (changedValues_report _ e range _)
  have hput := h.put (n := e') he rfl rfl hrange
  -- the time of the change is no part of what an entry says
  have hsay : Agree (put e' es) (put { e with range } es) := by
    rw [Agree, put, put, List.map_map, List.map_map]
    refine List.map_congr_left fun o _ => ?_
    by_cases ho : o.id = e.id <;> simp [e', ho, Entry.gist]
  rw [Database.changeRows, Database.getTable_of_table? h.rows.table]
  change Yields (List.foldlM _ db ((tableWith (es.map Entry.row)).rows.filter _)) _
  rw [hpicked, List.foldlM_cons, Database.getTable_of_table? h.rows.table]
  simp only [bind, Except.bind, id_row, row?_of_mem h.ledger he,
    Database.passesChange_of_strict (isLenient_tableWith _), hreplace]
  -- the trigger may note another time, which leaves what the entries say
  refine Yields.bind (react_update hput terms fuel _ rfl) ?_
  rintro db' ⟨es', h', hagree⟩
  exact ⟨es', h', hagree.trans hsay⟩

/-- An update of the row of an entry changes its range, or fails. -/
theorem update_yields (h : HasLedger db es) {e : Entry} (he : e ∈ es) {range : SyncRange}
    (hrange : range.isConsistent = true) (terms : Terms) :
    Yields (db.update terms table (fun t r => isEqual t r idColumn (.int e.id))
        (bounds range ++ [(changedColumn, .int terms.clock)]))
      fun db' => ∃ es', HasLedger db' es' ∧ Agree es' (put { e with range } es) := by
  have hnames : ∀ a ∈ bounds range ++ [(changedColumn, Value.int terms.clock)],
      a.1 ∈ reportColumns := by
    simp [bounds, boundColumns, reportColumns]
  rw [Database.update_eq (Database.getTable_of_table? h.rows.table) terms _
    (unsettable?_eq_none _ hnames)]
  refine (Yields.prepare db terms true _).bind fun _ _ => ?_
  refine (changeRows_report h he hrange terms 998).bind fun after hafter => ?_
  refine (Yields.settled terms db after).imp ?_
  rintro _ rfl
  exact hafter

/-! ## Insertions -/

/-- A new identifier comes after all others. -/
theorem nextId_yields (h : IsLedger es) (db : Database) :
    Yields (db.nextId (tableWith (es.map Entry.row))) fun id => ∀ e ∈ es, e.id < id := by
  have hlast : ∀ e ∈ es, e.id < ((tableWith (es.map Entry.row)).lastId?.map (· + 1)).getD 1 := by
    intro e he
    rcases List.eq_nil_or_concat es with rfl | ⟨before, last, rfl⟩
    · cases he
    · have hascending := h.ascending
      rw [List.concat_eq_append, List.pairwise_append] at hascending
      rw [List.concat_eq_append] at he ⊢
      -- the last identifier is the greatest, as they rise
      have hle : e.id ≤ last.id := by
        rcases List.mem_append.mp he with he | he
        · have := hascending.2.2 e he last (by simp)
          omega
        · obtain rfl := List.mem_singleton.mp he
          exact Int.le_refl _
      simp only [Table.lastId?, rows_tableWith, List.map_append, List.map_cons, List.map_nil,
        List.getLast?_concat, Option.map_some, id_row, Option.getD_some]
      omega
  have hauto : (tableWith (es.map Entry.row)).isAutoincrement = true := rfl
  rw [Database.nextId, if_pos hauto]
  split
  · exact .inr ⟨_, rfl⟩
  · intro e he
    have := hlast e he
    omega

theorem IsLedger.append (h : IsLedger es) {e : Entry} (hid : ∀ o ∈ es, o.id < e.id)
    (hplace : ∀ o ∈ es, o.place ≠ e.place) (hrange : e.range.isConsistent = true) :
    IsLedger (es ++ [e]) where
  ascending := by
    rw [List.pairwise_append]
    exact ⟨h.ascending, List.pairwise_singleton _ _, by simpa using hid⟩
  distinct := by
    rw [List.pairwise_append]
    exact ⟨h.distinct, List.pairwise_singleton _ _, by simpa using hplace⟩
  consistent := by
    intro o ho
    rcases List.mem_append.mp ho with ho | ho
    · exact h.consistent o ho
    · rw [List.mem_singleton.mp ho]
      exact hrange

/-- Nothing follows an insertion. -/
theorem react_insert (h : HasLedger db es) (terms : Terms) (fuel : Nat) (rows : List Row) (r : Row) :
    Database.react terms (fuel + 1) [] ⟨.insert, tableWith rows, none, some r⟩ db = .ok db := by
  have hon : db.triggersOn .insert (tableWith rows).name = [] := h.rows.triggersOn .insert
  rw [Database.react]
  split
  · change List.foldlM _ _ ((db.triggersOn .insert (tableWith rows).name).filter _) = _
    rw [hon]
    rfl
  · change List.foldlM _ _ ((db.triggersOn .insert (tableWith rows).name).filter _) = _
    rw [hon]
    rfl

/-- A new row adds an entry with a new place, or fails. -/
theorem addRow_yields (h : HasLedger db es) {key : CheckpointKey}
    (hkey : ∀ e ∈ es, e.place ≠ placeOf key) {range : SyncRange}
    (hrange : range.isConsistent = true) (clock : Int) :
    Yields (db.addRow clock (tableWith (es.map Entry.row))
        ((newRow key range clock).filter fun c => c.2 != .null))
      fun result => ∃ e : Entry, e.place = placeOf key ∧ e.range = range ∧ result.2 = e.row ∧
        HasLedger result.1 (es ++ [e]) := by
  have hnames : ∀ a ∈ (newRow key range clock).filter (fun c => c.2 != .null),
      a.1 ∈ reportColumns := by
    intro a ha
    have hmem := List.mem_of_mem_filter ha
    rw [newRow_eq] at hmem
    exact (List.of_mem_zip hmem).1
  -- no identifier is given, so one is given out
  have hnew : db.newId (tableWith (es.map Entry.row))
      ((newRow key range clock).filter fun c => c.2 != .null)
      = db.nextId (tableWith (es.map Entry.row)) := by
    rw [Database.newId, givenId?_eq_none _ hnames]
    rfl
  have hnext := nextId_yields h.ledger db
  cases hid : db.nextId (tableWith (es.map Entry.row)) with
  | error fault =>
    rw [hid] at hnext
    rw [Database.addRow, hnew, hid]
    exact hnext
  | ok id =>
    rw [hid] at hnext
    let e : Entry := ⟨id, placeOf key, range, .int clock, .int clock⟩
    have hadmits : db.admits clock (tableWith (es.map Entry.row)) e.row = .ok () :=
      admits_row clock e h.rows.indexes h.rows.table rfl hrange fun o ho _ => hkey o ho
    -- it is above all others, so it is free and its row comes last
    have hfree : (tableWith (es.map Entry.row)).row? e.row.id = none := by
      refine List.find?_eq_none.mpr fun r hr => ?_
      obtain ⟨o, ho, rfl⟩ := List.mem_map.mp hr
      have : o.id < id := hnext o ho
      rw [beq_iff_eq]
      change o.id ≠ id
      omega
    have hrows : Table.putRow e.row (es.map Entry.row) = (es ++ [e]).map Entry.row := by
      rw [List.map_append, Table.putRow_of_forall_lt]
      · rfl
      · intro r hr
        obtain ⟨o, ho, rfl⟩ := List.mem_map.mp hr
        exact hnext o ho
    have hadd := Database.addRow_eq (r := e.row) (hnew.trans hid)
      (newValues_eq clock id _ key range) hadmits hfree
    refine Yields.of_eq hadd ⟨e, rfl, rfl, rfl, ?_⟩
    rw [rows_tableWith, hrows]
    exact ⟨(h.rows.withRows _).give id, h.ledger.append hnext hkey hrange⟩

/-- An insertion adds an entry with a new place, or fails. -/
theorem insert_yields (h : HasLedger db es) {key : CheckpointKey}
    (hkey : ∀ e ∈ es, e.place ≠ placeOf key) {range : SyncRange}
    (hrange : range.isConsistent = true) (terms : Terms) :
    let given := (newRow key range terms.clock).filter fun c => c.2 != .null
    Yields (db.insert terms false table (given.map Prod.fst) [given.map Prod.snd])
      fun db' => ∃ e : Entry, e.place = placeOf key ∧ e.range = range ∧
        HasLedger db' (es ++ [e]) := by
  intro given
  have hnames : ∀ a ∈ given, a.1 ∈ reportColumns := by
    intro a ha
    have hmem := List.mem_of_mem_filter ha
    rw [newRow_eq] at hmem
    exact (List.of_mem_zip hmem).1
  have hfault : (tableWith (es.map Entry.row)).rowsFault? (given.map Prod.fst)
      [given.map Prod.snd] = none := by
    rw [Table.rowsFault?, unsettable?_eq_none _ hnames]
    simp
  have hzip : (given.map Prod.fst).zip (given.map Prod.snd) = given := by
    rw [List.zip_map']
    exact List.map_id given
  have hexpecting : HasLedger (db.expecting (tableWith (es.map Entry.row))) es :=
    ⟨h.rows.give 0, h.ledger⟩
  rw [Database.insert_eq (Database.getTable_of_table? h.rows.table) terms false hfault]
  refine (Yields.prepare db terms false _).bind fun _ _ => ?_
  -- the row comes, nothing follows it, and the references are checked at the end
  refine Yields.bind (p := fun db' => ∃ e : Entry, e.place = placeOf key ∧ e.range = range ∧
    HasLedger db' (es ++ [e])) ?_ ?_
  · rw [Database.addRows_singleton (Database.getTable_of_table? hexpecting.rows.table)
      (isLenient_tableWith _), hzip]
    refine (addRow_yields hexpecting hkey hrange terms.clock).bind ?_
    rintro ⟨db', row⟩ ⟨e, hplace, hrange', -, h'⟩
    exact Yields.of_eq (react_insert h' terms 999 _ row) ⟨e, hplace, hrange', h'⟩
  · intro after hafter
    refine (Yields.settled terms db after).imp ?_
    rintro _ rfl
    exact hafter

end Checkpoints

end AccountHistory
