import Mathlib.Data.List.Nodup
import AccountHistory.Proofs.CheckpointWrite

/-!
# Statements on checkpoints

The entries of the table make a ledger: identifiers rise, no two entries have one place, and all
ranges are consistent. An insertion adds an entry with a new place, an update changes the range of
one entry. Both either do so or fail for a reason outside the promises of the table: this is what
`Yields` says.
-/

namespace AccountHistory

open Store Sql

namespace Checkpoints

/-! ## Outcomes -/

/-- The outcome has a property, or it is a fault: a broken reference, or something that cannot be
done at all. No promise of a table is broken. -/
def Yields {α : Type} (result : Except Fault α) (p : α → Prop) : Prop :=
  match result with
  | .ok a => p a
  | .error fault => fault = .foreignKey ∨ ∃ reason, fault = .refused reason

namespace Yields

variable {α β : Type} {x : Except Fault α} {p q : α → Prop}

theorem of_eq {a : α} (h : x = .ok a) (hp : p a) : Yields x p := by
  rw [h]
  exact hp

theorem imp (h : Yields x p) (hpq : ∀ a, p a → q a) : Yields x q := by
  cases x with
  | ok a => exact hpq a h
  | error fault => exact h

theorem bind {f : α → Except Fault β} {r : β → Prop} (h : Yields x p)
    (hf : ∀ a, p a → Yields (f a) r) : Yields (x >>= f) r := by
  cases x with
  | ok a => exact hf a h
  | error fault => exact h

/-- What each step keeps holds in the end. -/
theorem foldlM {f : α → β → Except Fault α} {l : List β} {a : α} (ha : p a)
    (hstep : ∀ a, p a → ∀ b ∈ l, Yields (f a b) p) : Yields (l.foldlM f a) p := by
  induction l generalizing a with
  | nil => exact ha
  | cons b rest ih =>
    rw [List.foldlM_cons]
    refine (hstep a ha b (.head rest)).bind fun a' ha' => ?_
    exact ih ha' fun a'' ha'' b' hb' => hstep a'' ha'' b' (.tail b hb')

theorem prepare (db : Database) (terms : Terms) (many : Bool) (s : Database.Stir) :
    Yields (db.prepare terms many s) fun _ => True := by
  rw [Database.prepare]
  cases db.stirFault? terms.checked Database.maxDepth [] many s with
  | none => trivial
  | some reason => exact .inr ⟨reason, rfl⟩

theorem settled (terms : Terms) (before after : Database) :
    Yields (Database.settled terms before after) fun db => db = after := by
  rw [Database.settled]
  split
  · rw [Database.settle]
    split
    · exact .inl rfl
    · rfl
  · rfl

end Yields

/-! ## Ledgers -/

/-- What an entry says, but for the times of its making and changing. -/
def Entry.gist (e : Entry) : Int × Place × SyncRange := (e.id, e.place, e.range)

/-- The entries of a table. -/
structure IsLedger (es : List Entry) : Prop where
  /-- identifiers rise -/
  ascending : es.Pairwise (·.id < ·.id)
  /-- no two entries have one place -/
  distinct : es.Pairwise (·.place ≠ ·.place)
  /-- no start comes after its end -/
  consistent : ∀ e ∈ es, e.range.isConsistent = true

/-- The database has the table of checkpoints with the rows of a ledger. -/
structure HasLedger (db : Database) (es : List Entry) : Prop where
  /-- the rows are those of the entries -/
  rows : HasRows db (es.map Entry.row)
  /-- the entries are a ledger -/
  ledger : IsLedger es

/-- The entries with one in place of that of its identifier. -/
def put (e : Entry) (es : List Entry) : List Entry :=
  es.map fun o => if o.id = e.id then e else o

section Ledger

variable {es : List Entry} {e e' : Entry}

theorem IsLedger.eq_of_id (h : IsLedger es) (he : e ∈ es) (he' : e' ∈ es) (hid : e.id = e'.id) :
    e = e' := by
  have hnodup : (es.map Entry.id).Nodup := by
    rw [List.Nodup, List.pairwise_map]
    exact h.ascending.imp fun hlt => by omega
  exact List.inj_on_of_nodup_map hnodup he he' hid

theorem IsLedger.eq_of_place (h : IsLedger es) (he : e ∈ es) (he' : e' ∈ es)
    (hplace : e.place = e'.place) : e = e' := by
  have hnodup : (es.map Entry.place).Nodup := by
    rw [List.Nodup, List.pairwise_map]
    exact h.distinct
  exact List.inj_on_of_nodup_map hnodup he he' hplace

theorem map_id_put (es : List Entry) (e : Entry) : (put e es).map Entry.id = es.map Entry.id := by
  rw [put, List.map_map]
  refine List.map_congr_left fun o _ => ?_
  by_cases h : o.id = e.id <;> simp [h]

/-- An entry may be replaced by one of its identifier and place with a consistent range. -/
theorem IsLedger.put (h : IsLedger es) (he : e ∈ es) (hid : e'.id = e.id)
    (hplace : e'.place = e.place) (hrange : e'.range.isConsistent = true) :
    IsLedger (put e' es) := by
  have hplaces : (Checkpoints.put e' es).map Entry.place = es.map Entry.place := by
    rw [Checkpoints.put, List.map_map]
    refine List.map_congr_left fun o ho => ?_
    by_cases hoe : o.id = e'.id
    · have : o = e := h.eq_of_id ho he (hoe.trans hid)
      simp [hid, this, hplace]
    · simp [hoe]
  refine ⟨?_, ?_, ?_⟩
  · rw [← List.pairwise_map (f := Entry.id) (R := (· < ·)), map_id_put, List.pairwise_map]
    exact h.ascending
  · rw [← List.pairwise_map (f := Entry.place) (R := (· ≠ ·)), hplaces, List.pairwise_map]
    exact h.distinct
  · intro o ho
    obtain ⟨o', ho', rfl⟩ := List.mem_map.mp ho
    split
    · exact hrange
    · exact h.consistent o' ho'

/-- A row is found by its identifier. -/
theorem row?_of_mem (h : IsLedger es) (he : e ∈ es) :
    (tableWith (es.map Entry.row)).row? e.id = some e.row := by
  have hfind : es.find? ((fun r => r.id == e.id) ∘ Entry.row) = some e := by
    refine find?_eq_of_unique he (by simp) fun o ho hid => h.eq_of_id ho he ?_
    simpa using hid
  rw [Table.row?, rows_tableWith, List.find?_map, hfind, Option.map_some]

/-- A row with an identifier has an entry. -/
theorem exists_of_row? {id : Int} {r : Row}
    (h : (tableWith (es.map Entry.row)).row? id = some r) : ∃ e ∈ es, e.row = r := by
  have hmem := List.mem_of_find?_eq_some h
  exact List.mem_map.mp hmem

/-- The row of an entry takes the place of that of its identifier. -/
theorem putRow_rowsBut (h : IsLedger es) (he : e ∈ es) (hid : e'.id = e.id) :
    Table.putRow e'.row ((tableWith (es.map Entry.row)).rowsBut e.id)
      = (put e' es).map Entry.row := by
  have hsorted : (es.map Entry.row).Pairwise (·.id < ·.id) := by
    rw [List.pairwise_map]
    exact h.ascending
  have hmem : ∃ r ∈ es.map Entry.row, r.id = e'.row.id := ⟨e.row, List.mem_map_of_mem he, hid.symm⟩
  have hput := Table.putRow_filter_ne hsorted hmem
  rw [id_row, hid] at hput
  rw [Table.rowsBut, rows_tableWith, hput, put, List.map_map, List.map_map]
  refine List.map_congr_left fun o _ => ?_
  by_cases ho : o.id = e.id <;> simp [ho, hid]

end Ledger

/-! ## Databases with other rows -/

section Databases

variable {db : Database} {es : List Entry}

theorem HasRows.withRows {rows : List Row} (h : HasRows db rows) (rows' : List Row) :
    HasRows (db.withRows Checkpoints.table rows') rows' where
  table := Database.table?_withRows_self h.table rows'
  indexes := h.indexes
  triggers := h.triggers

theorem HasRows.give {rows : List Row} (h : HasRows db rows) (id : Int) :
    HasRows (db.give Checkpoints.table id) rows :=
  ⟨h.table, h.indexes, h.triggers⟩

/-- The only trigger of the table waits for an update. -/
theorem HasRows.triggersOn {rows : List Row} (h : HasRows db rows) (event : Event) :
    db.triggersOn event Checkpoints.table = if event = .update then [touch] else [] := by
  have hfilter : db.triggersOn event Checkpoints.table
      = ((db.triggers.filter fun g => Text.sameFold g.table Checkpoints.table).reverse).filter
          fun g => g.event == event := by
    rw [Database.triggersOn, ← List.filter_reverse, List.filter_filter]
    congr 1
    funext g
    exact Bool.and_comm _ _
  rw [hfilter, h.triggers]
  cases event <;> rfl

/-- References to the table that are followed lead to the identifier of the row. -/
theorem parentColumns_of_leads {rows : List Row} (h : HasRows db rows) (rows' : List Row)
    {f : ForeignKey} (hleads : db.leads f (tableWith rows') = true) :
    ∃ c, Database.parentColumns f (tableWith rows') = [c] ∧ Text.sameFold idColumn c = true := by
  have hunique : ∀ cs, Database.identifies.hasUnique db (tableWith rows') cs = false := by
    intro cs
    have hindexes : db.indexesOf (tableWith rows').name = uniqueIndexes := by
      rw [name_tableWith, Database.indexesOf, h.table, Option.elim_some, h.indexes]
      rfl
    rw [Database.identifies.hasUnique, hindexes]
    simp [uniqueIndexes, uniqueIndex]
  have hkey : (tableWith rows').keyColumn?
      = some ⟨idColumn, .integer, true, some .autoincrement, .const .null⟩ := rfl
  rw [Database.leads, Bool.and_eq_true] at hleads
  have hidentifies := hleads.2
  rw [Database.identifies.eq_def, hkey] at hidentifies
  rcases hcolumns : Database.parentColumns f (tableWith rows') with _ | ⟨c, _ | ⟨c', rest⟩⟩
  · simp [hcolumns] at hidentifies
  · exact ⟨c, rfl, by simpa [hcolumns, hunique] using hidentifies⟩
  · simp [hcolumns, hunique] at hidentifies

/-- Steps that change nothing change nothing together. -/
theorem foldlM_eq_self {α β : Type} {f : α → β → Except Fault α} {a : α} {l : List β}
    (h : ∀ b ∈ l, f a b = .ok a) : l.foldlM f a = .ok a := by
  induction l with
  | nil => rfl
  | cons b rest ih =>
    rw [List.foldlM_cons, h b (.head rest)]
    exact ih fun b' hb' => h b' (.tail b hb')

/-- Nothing follows from a change that leaves the identifier of a row. -/
theorem followReferences_eq {rows rows' : List Row} (h : HasRows db rows) {e e' : Entry}
    (hid : e.id = e'.id) (terms : Terms) (after : Database.Reaction) :
    Database.followReferences terms after ⟨.update, tableWith rows', some e.row, some e'.row⟩ db
      = .ok db := by
  refine foldlM_eq_self fun ⟨child, f⟩ _ => ?_
  refine if_pos ?_
  cases hleads : db.leads f (tableWith rows') with
  | false => simp
  | true =>
    obtain ⟨c, hcolumns, hc⟩ := parentColumns_of_leads h rows' hleads
    have hindex : (tableWith rows').columnIndex? c = some 0 := by
      rw [Table.columnIndex?, columns_tableWith, columns, List.cons_append, List.cons_append,
        List.findIdx?_cons, hc]
      rfl
    have hkey (o : Entry) : Database.keyOf (tableWith rows') f o.row = [.int o.id] := by
      rw [Database.keyOf, hcolumns]
      simp [Table.valuesAt, Table.value?, hindex, Entry.row]
    simp [hkey, hid]

/-! ## Changes -/

/-- Two lists of entries say the same. -/
def Agree (es es' : List Entry) : Prop := es.map Entry.gist = es'.map Entry.gist

/-- An entry that says the same may take the place of another. -/
theorem agree_put (h : IsLedger es) {e n : Entry} (he : e ∈ es) (hgist : n.gist = e.gist) :
    Agree (put n es) es := by
  have hid : n.id = e.id := congrArg Prod.fst hgist
  rw [Agree, put, List.map_map]
  refine List.map_congr_left fun o ho => ?_
  by_cases hoe : o.id = n.id
  · have : o = e := h.eq_of_id ho he (hoe.trans hid)
    simp [hid, this, hgist]
  · simp [hoe]

/-- An entry gives way to one of its identifier and place, where the assignments say so. -/
theorem HasLedger.replaceRow_eq (h : HasLedger db es) {e n : Entry} (he : e ∈ es)
    (hid : n.id = e.id) (hplace : n.place = e.place) (hrange : n.range.isConsistent = true)
    (clock : Int) {assignments : List (String × Value)}
    (hnames : (tableWith (es.map Entry.row)).unsettable? (assignments.map Prod.fst) = none)
    (hgiven : Database.givenId? (tableWith (es.map Entry.row)) assignments = none)
    (hvalues : Database.changedValues (tableWith (es.map Entry.row)) e.row e.id assignments
      = n.row.values) :
    db.replaceRow clock (tableWith (es.map Entry.row)) e.row assignments
      = .ok (db.withRows table ((put n es).map Entry.row), n.row) := by
  -- the new row is checked against the rows of all other entries
  have hothers : ({ tableWith (es.map Entry.row) with
      rows := (tableWith (es.map Entry.row)).rowsBut e.id } : Table)
      = tableWith ((es.filter fun o => o.id != e.id).map Entry.row) := by
    rw [tableWith, tableWith, Table.rowsBut, List.filter_map]
    rfl
  have hdistinct : ∀ o ∈ es.filter (fun o => o.id != e.id), o.id ≠ n.id → o.place ≠ n.place := by
    intro o ho hne
    rw [hplace]
    intro heq
    exact hne (by rw [hid, h.ledger.eq_of_place (List.mem_of_mem_filter ho) he heq])
  have hadmits : db.admits clock (tableWith ((es.filter fun o => o.id != e.id).map Entry.row)) n.row
      = .ok () :=
    admits_row clock n h.rows.indexes h.rows.table rfl hrange hdistinct
  have hfree : (tableWith ((es.filter fun o => o.id != e.id).map Entry.row)).row? n.id = none := by
    rw [Table.row?, List.find?_eq_none]
    intro r hr
    obtain ⟨o, ho, rfl⟩ := List.mem_map.mp hr
    have hne : o.id ≠ e.id := by simpa using (List.mem_filter.mp ho).2
    simpa [hid] using hne
  -- it is admitted, and its identifier is free when the old row is out
  have hrow := Database.replaceRow_eq (r := e.row) (s := n.row) hnames
    (by rw [id_row, hid, Database.changedId, hgiven]; rfl)
    (by rw [id_row, hid]; exact hvalues) (by rw [id_row, hothers]; exact hadmits)
    (by rw [id_row, id_row, hothers]; exact hfree)
  rw [hrow, id_row, putRow_rowsBut h.ledger he hid]
  rfl

theorem HasLedger.put (h : HasLedger db es) {e n : Entry} (he : e ∈ es) (hid : n.id = e.id)
    (hplace : n.place = e.place) (hrange : n.range.isConsistent = true) :
    HasLedger (db.withRows table ((Checkpoints.put n es).map Entry.row))
      (Checkpoints.put n es) :=
  ⟨h.rows.withRows _, h.ledger.put he hid hplace hrange⟩

end Databases

end Checkpoints

end AccountHistory
