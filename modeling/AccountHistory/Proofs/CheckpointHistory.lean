import Mathlib.Data.List.Find
import AccountHistory.Proofs.CheckpointStatements

/-!
# Histories of checkpoints

Clients report ranges in any order, each report in a transaction of its own. What is stored for a key
is at any time the merge of the ranges of all accepted reports for it: the rows say so, and so do
`get` and `load`. A report fails only if the merge has a start behind its end, or for a reason
outside the promises of the table, and it never touches what is stored for another key.

* **The relation** is `Holds`: what is stored for each key, as rows, `get` and `load` have it.
* **The invariant** behind it is that the rows are those of a ledger.
-/

namespace AccountHistory

open Store Sql

namespace Checkpoints

/-! ## Definition -/

/-- A report of a client. Of its session only the settings count, the database is the shared one. -/
structure Call where
  /-- the session of the client -/
  client : Session
  /-- what the report is about -/
  key : CheckpointKey
  /-- the range that is reported -/
  report : SyncRange

/-- What a call says. -/
def Call.on (c : Call) (db : Database) : Except CheckpointError (SyncRange × Session) :=
  upsert (c.client.withDatabase db) c.key c.report

/-- The database that a call leaves. A call is a transaction: if it fails, nothing has changed. -/
def Call.leave (c : Call) (db : Database) : Database :=
  match c.on db with
  | .ok (_, s) => s.database
  | .error _ => db

/-- The database that calls leave, one after the other. -/
def leaveAll (calls : List Call) (db : Database) : Database :=
  calls.foldl (fun db c => c.leave db) db

/-- A range merged into what is stored. -/
def mergeInto (stored : Option SyncRange) (range : SyncRange) : SyncRange :=
  stored.elim range fun r => r.merge range

/-- Ranges merged into what is stored, in their order. -/
def mergeAll (stored : Option SyncRange) (ranges : List SyncRange) : Option SyncRange :=
  ranges.foldl (fun stored range => some (mergeInto stored range)) stored

/-- The ranges of the accepted calls for a place, in their order. -/
def accepted (place : Place) : List Call → Database → List SyncRange
  | [], _ => []
  | c :: rest, db =>
    if (c.on db).isOk && placeOf c.key = place then c.report :: accepted place rest (c.leave db)
    else accepted place rest (c.leave db)

/-- The table is as the library makes it and all its rows are of calls. Other statements may change
the rest of the database and take rows away, as the deletion of a user does. -/
inductive Written : Database → Prop
  /-- no row has been written -/
  | fresh {db : Database} (rows : HasRows db []) : Written db
  /-- a call wrote -/
  | call {db : Database} (c : Call) (before : Written db) : Written (c.leave db)
  /-- something else happened -/
  | elsewhere {db db' : Database} {rows rows' : List Row} (before : Written db)
    (had : HasRows db rows) (has : HasRows db' rows') (taken : rows'.Sublist rows) : Written db'

/-- The columns of the key of a row. -/
def keyColumns : List String := ["user_id", "subUserId", "collName", "symbol", "timeframe"]

/-- What is stored for each key. -/
structure Holds (db : Database) (stored : CheckpointKey → Option SyncRange) : Prop where
  /-- a key has one row at most, with what is stored for it -/
  rows : ∃ t, db.table? table = some t ∧ (t.rows.map fun r => t.valuesAt r keyColumns).Nodup ∧
    ∀ key, (t.rows.filter (isFor key t)).map (rangeOf t) = (stored key).toList
  /-- a single key is read -/
  get_eq : ∀ key, get db key = .ok (stored key)
  /-- all keys of an owner and a collection are read, each of them once -/
  load_eq : ∀ owner collection, ∃ entries, load db owner collection = .ok entries ∧
    (entries.map fun e => (e.symbol, e.timeframe)).Nodup ∧
    ∀ e, e ∈ entries ↔ e.timeframe ≠ some "" ∧
      stored ⟨owner, collection, e.symbol, e.timeframe⟩ = some e.range

/-- What a call does where something is stored for each key. -/
structure Serves (db : Database) (stored : CheckpointKey → Option SyncRange) (c : Call) : Prop where
  /-- an accepted call says what is stored after it for its key; all others keep what they have -/
  accepts : ∀ range s, c.on db = .ok (range, s) → range = mergeInto (stored c.key) c.report ∧
    Holds (c.leave db) fun key => if placeOf key = placeOf c.key then some range else stored key
  /-- a call that is not accepted changes nothing and breaks no promise of the table; if it is
  refused as inconsistent, the range is the merge -/
  fails : ∀ error, c.on db = .error error → c.leave db = db ∧
    (error = .inconsistent c.key.collection c.key.symbol (mergeInto (stored c.key) c.report) ∨
      error = .store .foreignKey ∨ ∃ reason, error = .store (.refused reason))
  /-- a call is refused as inconsistent just if the merge has a start behind its end -/
  inconsistent_iff : c.on db = .error (.inconsistent c.key.collection c.key.symbol
      (mergeInto (stored c.key) c.report)) ↔
    (mergeInto (stored c.key) c.report).isConsistent = false

/-! ## Ranges of a ledger -/

/-- The range of the entry of a place, if there is one. -/
def rangeAt (es : List Entry) (place : Place) : Option SyncRange :=
  (es.find? fun e => e.place = place).map Entry.range

section Ranges

variable {es es' : List Entry} {e : Entry}

theorem rangeAt_of_agree (h : Agree es es') (place : Place) :
    rangeAt es place = rangeAt es' place := by
  have hgist (es : List Entry) : rangeAt es place
      = ((es.map Entry.gist).find? fun g => g.2.1 = place).map (·.2.2) := by
    rw [rangeAt, List.find?_map, Option.map_map]
    rfl
  rw [hgist, hgist, h]

theorem rangeAt_of_mem (h : IsLedger es) (he : e ∈ es) : rangeAt es e.place = some e.range := by
  have hfind : es.find? (fun o => o.place = e.place) = some e := by
    refine find?_eq_of_unique he (by simp) fun o ho hplace => h.eq_of_place ho he ?_
    simpa using hplace
  rw [rangeAt, hfind, Option.map_some]

theorem rangeAt_eq_some {place : Place} {range : SyncRange} (h : IsLedger es) :
    rangeAt es place = some range ↔ ∃ e ∈ es, e.place = place ∧ e.range = range := by
  constructor
  · intro hat
    obtain ⟨e, hfind, hrange⟩ := Option.map_eq_some_iff.mp hat
    exact ⟨e, List.mem_of_find?_eq_some hfind, by simpa using List.find?_some hfind, hrange⟩
  · rintro ⟨e, he, rfl, rfl⟩
    exact rangeAt_of_mem h he

/-- Another range for an entry changes nothing elsewhere. -/
theorem rangeAt_put (h : IsLedger es) (he : e ∈ es) (range : SyncRange) (place : Place) :
    rangeAt (put { e with range } es) place
      = if place = e.place then some range else rangeAt es place := by
  by_cases hplace : place = e.place
  · subst hplace
    have hfind : ∀ o ∈ es, (o.place = e.place ↔ o.id = e.id) := fun o ho =>
      ⟨fun heq => by rw [h.eq_of_place ho he heq], fun heq => by rw [h.eq_of_id ho he heq]⟩
    rw [if_pos rfl, rangeAt, put, List.find?_map, Option.map_map]
    -- in a ledger the entry of this place is the one of this identifier
    have hpick : es.find? ((fun o => decide (o.place = e.place)) ∘
        fun o => if o.id = e.id then { e with range } else o) = some e := by
      refine find?_eq_of_unique he (by simp) fun o ho hp => h.eq_of_id ho he ?_
      by_contra hid
      simp [hid, hfind o ho] at hp
    rw [hpick]
    simp
  · rw [if_neg hplace, rangeAt, rangeAt, put, List.find?_map, Option.map_map]
    -- a place that is not that of the entry is not touched
    have hsame : ∀ o ∈ es, ((fun o => decide (o.place = place)) ∘
        fun o => if o.id = e.id then { e with range } else o) o = decide (o.place = place) := by
      intro o ho
      by_cases hid : o.id = e.id
      · simp [h.eq_of_id ho he hid]
      · simp [hid]
    rw [List.find?_congr hsame]
    cases hfind : es.find? fun o => decide (o.place = place) with
    | none => rfl
    | some o =>
      have hne : o.id ≠ e.id := by
        intro hid
        have hoe := h.eq_of_id (List.mem_of_find?_eq_some hfind) he hid
        have := List.find?_some hfind
        rw [hoe, decide_eq_true_eq] at this
        exact hplace this.symm
      simp [hne]

/-- A new entry changes nothing elsewhere. -/
theorem rangeAt_append (h : ∀ o ∈ es, o.place ≠ e.place) (place : Place) :
    rangeAt (es ++ [e]) place = if place = e.place then some e.range else rangeAt es place := by
  rw [rangeAt, rangeAt, List.find?_append]
  by_cases hplace : place = e.place
  · subst hplace
    have hnone : es.find? (fun o => o.place = e.place) = none := by
      rw [List.find?_eq_none]
      intro o ho
      simpa using h o ho
    simp [hnone]
  · have hnone : [e].find? (fun o => o.place = place) = none := by
      simpa [eq_comm] using hplace
    rw [hnone, Option.or_none, if_neg hplace]

end Ranges

/-! ## Reading a ledger -/

section Reading

variable {db : Database} {es : List Entry}

/-- What is read of a key is the range of the entry of its place. -/
theorem get_eq_rangeAt (h : HasLedger db es) (key : CheckpointKey) :
    get db key = .ok (rangeAt es (placeOf key)) := by
  rw [get, tableOf_eq h.rows]
  simp only [bind, Except.bind, find_rows, pure, Except.pure, Except.mapError, Option.map_map,
    rangeAt]
  rfl

/-- The rows of an owner and a collection are those of the entries of these, in their order. -/
theorem rowsOf_rows (h : IsLedger es) (owner : CheckpointOwner) (collection : String) :
    rowsOf (tableWith (es.map Entry.row)) owner collection
      = (es.filter fun e => e.place.owner = owner ∧ e.place.collection = collection).map
          Entry.row := by
  have hof : (isOf owner collection (tableWith (es.map Entry.row))) ∘ Entry.row
      = fun e => decide (e.place.owner = owner ∧ e.place.collection = collection) := by
    funext e
    exact isOf_row _ e owner collection
  have hid (e : Entry) : ((tableWith (es.map Entry.row)).value? e.row idColumn).getD .null
      = .int e.id := by
    rw [Table.value?, (columnIndex?_tableWith _).1]
    rfl
  have hfilter : (tableWith (es.map Entry.row)).rows.filter
        (isOf owner collection (tableWith (es.map Entry.row)))
      = (es.filter fun e => e.place.owner = owner ∧ e.place.collection = collection).map
          Entry.row := by
    rw [rows_tableWith, List.filter_map, hof]
  rw [rowsOf, hfilter]
  refine List.mergeSort_of_pairwise ?_
  rw [List.pairwise_map]
  refine (h.ascending.filter _).imp fun {a b} hlt => ?_
  simp only [hid, Value.compare, Expr.compare_ne_gt, decide_eq_true_eq]
  exact Int.le_of_lt hlt

/-- What is read of an owner and a collection are the entries of these. -/
theorem load_eq_map (h : HasLedger db es) (owner : CheckpointOwner) (collection : String) :
    load db owner collection = .ok
      ((es.filter fun e => e.place.owner = owner ∧ e.place.collection = collection).map
        fun e => e.stored.entry) := by
  have hread (l : List Entry) : (l.map Entry.row).mapM (storedRange (tableWith (es.map Entry.row)))
      = .ok (l.map Entry.stored) := by
    induction l with
    | nil => rfl
    | cons e rest ih =>
      rw [List.map_cons, List.mapM_cons, storedRange_row, ih]
      rfl
  rw [load, tableOf_eq h.rows]
  simp only [bind, Except.bind, rowsOf_rows h.ledger, hread, pure, Except.pure, Except.mapError,
    List.map_map]
  rfl

/-- The values of the key of a row. -/
theorem valuesAt_row (rows : List Row) (e : Entry) :
    (tableWith rows).valuesAt e.row keyColumns
      = [number (ownerId e.place.owner), number (subOwnerId e.place.owner),
        .text e.place.collection, .text e.place.symbol, .text e.place.timeframe] := by
  obtain ⟨-, hu, hs, hc, hy, ht, -⟩ := columnIndex?_tableWith rows
  simp [Table.valuesAt, Table.value?, keyColumns, hu, hs, hc, hy, ht, Entry.row]

/-- The key of a row says what its place is. -/
theorem place_eq_of_valuesAt {rows : List Row} {e e' : Entry}
    (h : (tableWith rows).valuesAt e.row keyColumns = (tableWith rows).valuesAt e'.row keyColumns) :
    e.place = e'.place := by
  rw [valuesAt_row, valuesAt_row] at h
  simp only [List.cons.injEq, number_inj, Value.text.injEq, and_true] at h
  obtain ⟨howner, hsub, hcollection, hsymbol, htimeframe⟩ := h
  exact Place.ext (owner_eq_iff.mpr ⟨howner, hsub⟩) hcollection hsymbol htimeframe

/-- The rows of a key have the range of the entry of its place. -/
theorem rangeOf_rows (h : IsLedger es) (key : CheckpointKey) :
    ((es.map Entry.row).filter (isFor key (tableWith (es.map Entry.row)))).map
        (rangeOf (tableWith (es.map Entry.row)))
      = (rangeAt es (placeOf key)).toList := by
  have hfor : (isFor key (tableWith (es.map Entry.row))) ∘ Entry.row
      = fun e => decide (e.place = placeOf key) := by
    funext e
    exact isFor_row _ e key
  have hpick : es.filter (fun e => e.place = placeOf key)
      = (es.find? fun e => e.place = placeOf key).toList := by
    cases hfind : es.find? fun e => e.place = placeOf key with
    | none => exact List.filter_eq_nil_iff.mpr (List.find?_eq_none.mp hfind)
    | some e =>
      have he := List.mem_of_find?_eq_some hfind
      have hplace : e.place = placeOf key := by simpa using List.find?_some hfind
      rw [Option.toList_some, ← filter_eq_singleton h he]
      refine List.filter_congr fun o ho => ?_
      rw [← hplace, decide_eq_decide]
      exact ⟨fun heq => by rw [h.eq_of_place ho he heq], fun heq => by rw [h.eq_of_id ho he heq]⟩
  rw [List.filter_map, hfor, hpick, List.map_map, rangeAt]
  cases es.find? fun e => e.place = placeOf key with
  | none => rfl
  | some e => simp [rangeOf_row]

/-- The key of what is listed is that of its entry. -/
theorem placeOf_entry (e : Entry) :
    placeOf ⟨e.place.owner, e.place.collection, e.stored.entry.symbol, e.stored.entry.timeframe⟩
      = e.place := by
  refine Place.ext rfl rfl rfl ?_
  by_cases h : e.place.timeframe = "" <;>
    simp [placeOf, timeframeText, StoredRange.entry, Entry.stored, h]

/-- What is stored for a key is listed, unless the key has an empty timeframe for none. -/
theorem entry_eq {e : Entry} {key : CheckpointKey} (hplace : e.place = placeOf key)
    (hkey : key.timeframe ≠ some "") : e.stored.entry = ⟨key.symbol, key.timeframe, e.range⟩ := by
  have htimeframe : (if e.place.timeframe = "" then none else some e.place.timeframe)
      = key.timeframe := by
    rw [hplace, placeOf]
    cases h : key.timeframe with
    | none => rfl
    | some s =>
      have hs : s ≠ "" := by
        rintro rfl
        exact hkey h
      simp [timeframeText, hs]
  rw [StoredRange.entry, Entry.stored, htimeframe, hplace]
  rfl

theorem timeframe_entry_ne (stored : StoredRange) : stored.entry.timeframe ≠ some "" := by
  rw [StoredRange.entry]
  split
  case isTrue => simp
  case isFalse h => simpa using h

/-- What is stored is what the entries say. -/
theorem HasLedger.holds (h : HasLedger db es) : Holds db fun key => rangeAt es (placeOf key) where
  rows := by
    refine ⟨_, h.rows.table, ?_, rangeOf_rows h.ledger⟩
    rw [rows_tableWith, List.map_map, List.Nodup, List.pairwise_map]
    exact h.ledger.distinct.imp fun hne heq => hne (place_eq_of_valuesAt heq)
  get_eq := get_eq_rangeAt h
  load_eq := by
    intro owner collection
    refine ⟨_, load_eq_map h owner collection, ?_, fun entry => ?_⟩
    · rw [List.map_map, List.Nodup, List.pairwise_map]
      -- entries of one owner and collection that agree in symbol and timeframe have one place
      refine (h.ledger.distinct.filter _).imp_of_mem fun {a b} ha hb hne heq => hne ?_
      obtain ⟨-, ha⟩ := List.mem_filter.mp ha
      obtain ⟨-, hb⟩ := List.mem_filter.mp hb
      rw [decide_eq_true_eq] at ha hb
      obtain ⟨hsymbol, htimeframe⟩ := Prod.mk.inj heq
      rw [← placeOf_entry a, ← placeOf_entry b, ha.1, ha.2, hb.1, hb.2, hsymbol, htimeframe]
    · constructor
      · intro hentry
        obtain ⟨e, he, rfl⟩ := List.mem_map.mp hentry
        obtain ⟨he, hof⟩ := List.mem_filter.mp he
        rw [decide_eq_true_eq] at hof
        refine ⟨timeframe_entry_ne _, ?_⟩
        rw [← hof.1, ← hof.2, placeOf_entry]
        exact rangeAt_of_mem h.ledger he
      · rintro ⟨htimeframe, hrange⟩
        obtain ⟨e, he, hplace, hrange⟩ := (rangeAt_eq_some h.ledger).mp hrange
        refine List.mem_map.mpr ⟨e, List.mem_filter.mpr ⟨he, ?_⟩, ?_⟩
        · simp [hplace, placeOf]
        · rw [entry_eq hplace htimeframe, hrange]

end Reading

/-! ## Calls -/

/-- What a write makes of a ledger: the place of a key has a range then, and no other place
differs. -/
inductive Wrote (es : List Entry) (key : CheckpointKey) (range : SyncRange) : List Entry → Prop
  /-- an entry comes last, as the place had none -/
  | added {e : Entry} (free : ∀ o ∈ es, o.place ≠ placeOf key) (place : e.place = placeOf key)
    (range_eq : e.range = range) : Wrote es key range (es ++ [e])
  /-- the entry of the place has another range -/
  | changed {e : Entry} {es' : List Entry} (mem : e ∈ es) (place : e.place = placeOf key)
    (agree : Agree es' (put { e with range } es)) : Wrote es key range es'

/-- What a call does to a ledger. -/
inductive Answers (es : List Entry) (key : CheckpointKey) (merged : SyncRange) :
    Except CheckpointError (SyncRange × Session) → Prop
  /-- it puts the merged range in place of what the key had -/
  | accepted {s : Session} {es' : List Entry} (consistent : merged.isConsistent = true)
    (after : HasLedger s.database es')
    (wrote : Wrote es key merged es') : Answers es key merged (.ok (merged, s))
  /-- it is refused for its range -/
  | inconsistent (refused : merged.isConsistent = false) :
    Answers es key merged (.error (.inconsistent key.collection key.symbol merged))
  /-- a reference is broken, or it cannot be done at all -/
  | failed {fault : Fault} (consistent : merged.isConsistent = true)
    (reason : fault = .foreignKey ∨ ∃ reason, fault = .refused reason) :
    Answers es key merged (.error (.store fault))

section Calls

variable {db : Database} {es : List Entry}

theorem Wrote.rangeAt_eq {key : CheckpointKey} {range : SyncRange} {es' : List Entry}
    (h : Wrote es key range es') (hes : IsLedger es) (place : Place) :
    rangeAt es' place = if place = placeOf key then some range else rangeAt es place := by
  cases h with
  | added free hplace hrange =>
    rw [← hplace, ← hrange]
    exact rangeAt_append (hplace ▸ free) place
  | changed he hplace agree => rw [rangeAt_of_agree agree, rangeAt_put hes he, hplace]

/-- A row of a ledger is written, or a statement fails. -/
theorem write_yields {s : Session} (h : HasLedger s.database es) (key : CheckpointKey)
    {range : SyncRange} (hrange : range.isConsistent = true) :
    Yields (write s ((es.find? fun e => e.place = placeOf key).map Entry.stored) key range)
      fun db' => ∃ es', HasLedger db' es' ∧ Wrote es key range es' := by
  cases hfind : es.find? fun e => e.place = placeOf key with
  | none =>
    have hkey : ∀ e ∈ es, e.place ≠ placeOf key := by
      intro e he
      simpa using List.find?_eq_none.mp hfind e he
    refine (insert_yields h hkey hrange s.terms).imp ?_
    rintro db' ⟨e, hplace, hrange', h'⟩
    exact ⟨es ++ [e], h', .added hkey hplace hrange'⟩
  | some e =>
    have he := List.mem_of_find?_eq_some hfind
    have hplace : e.place = placeOf key := by simpa using List.find?_some hfind
    refine (update_yields h he hrange s.terms).imp ?_
    rintro db' ⟨es', h', hagree⟩
    exact ⟨es', h', .changed he hplace hagree⟩

theorem upsert_answers {s : Session} (h : HasLedger s.database es) (key : CheckpointKey)
    (report : SyncRange) :
    Answers es key (mergeInto (rangeAt es (placeOf key)) report) (upsert s key report) := by
  have hfind : ((tableOf s.database key.owner).bind fun t => find t key)
      = .ok ((es.find? fun e => e.place = placeOf key).map Entry.stored) := by
    rw [tableOf_eq h.rows]
    exact find_rows es key
  -- what is found is what the ledger has, so the merge is the one that the ledger says
  have hmerged : (((es.find? fun e => e.place = placeOf key).map Entry.stored).map
      StoredRange.range).elim report (fun r => r.merge report)
      = mergeInto (rangeAt es (placeOf key)) report := by
    rw [Option.map_map]
    rfl
  rw [upsert, hfind]
  simp only [hmerged]
  split
  case isFalse hconsistent => exact .inconsistent (by simpa using hconsistent)
  case isTrue hconsistent =>
    have hwrite := write_yields h key hconsistent
    cases hresult : write s ((es.find? fun e => e.place = placeOf key).map Entry.stored) key
        (mergeInto (rangeAt es (placeOf key)) report) with
    | ok db' =>
      rw [hresult] at hwrite
      obtain ⟨es', h', hwrote⟩ := hwrite
      exact .accepted hconsistent h' hwrote
    | error fault =>
      rw [hresult] at hwrite
      exact .failed hconsistent hwrite

theorem Call.on_answers (h : HasLedger db es) (c : Call) :
    Answers es c.key (mergeInto (rangeAt es (placeOf c.key)) c.report) (c.on db) :=
  upsert_answers (s := c.client.withDatabase db) h c.key c.report

/-- A call leaves a ledger, in which it changes one range if it is accepted, and none otherwise. -/
theorem HasLedger.leave (h : HasLedger db es) (c : Call) :
    ∃ es', HasLedger (c.leave db) es' ∧ ∀ place, rangeAt es' place
      = if (c.on db).isOk ∧ placeOf c.key = place then
          some (mergeInto (rangeAt es place) c.report)
        else rangeAt es place := by
  rw [Call.leave]
  generalize hon : c.on db = outcome
  cases hon ▸ c.on_answers h with
  | accepted _ after wrote =>
    refine ⟨_, after, fun place => ?_⟩
    rw [wrote.rangeAt_eq h.ledger]
    by_cases hplace : place = placeOf c.key
    · simp [hplace, Except.isOk, Except.toBool]
    · simp [hplace, Ne.symm hplace]
  | inconsistent => exact ⟨es, h, fun place => by simp [Except.isOk, Except.toBool]⟩
  | failed => exact ⟨es, h, fun place => by simp [Except.isOk, Except.toBool]⟩

/-- What a call does is what is said of it. -/
theorem HasLedger.serves (h : HasLedger db es) (c : Call) :
    Serves db (fun key => rangeAt es (placeOf key)) c where
  accepts := by
    intro range s hon
    obtain ⟨es', h', hranges⟩ := h.leave c
    have hanswers := c.on_answers h
    rw [hon] at hanswers
    cases hanswers with
    | accepted =>
      refine ⟨rfl, ?_⟩
      have hholds := h'.holds
      simp only [hranges, hon] at hholds
      convert hholds using 2 with key
      by_cases hplace : placeOf key = placeOf c.key
      · simp [hplace, Except.isOk, Except.toBool]
      · simp [hplace, Ne.symm hplace]
  fails := by
    intro error hon
    have hanswers := c.on_answers h
    rw [hon] at hanswers
    refine ⟨by rw [Call.leave, hon], ?_⟩
    cases hanswers with
    | inconsistent => exact .inl rfl
    | failed _ reason =>
      rcases reason with rfl | ⟨reason, rfl⟩
      · exact .inr (.inl rfl)
      · exact .inr (.inr ⟨reason, rfl⟩)
  inconsistent_iff := by
    have hanswers := c.on_answers h
    generalize c.on db = outcome at hanswers
    cases hanswers with
    | accepted consistent => simp [consistent]
    | inconsistent refused => simp [refused]
    | failed consistent => simp [consistent]

end Calls

/-! ## Histories -/

section Histories

variable {db : Database} {es : List Entry}

/-- **The invariant.** The rows that calls have written are those of a ledger. -/
theorem Written.exists_ledger (h : Written db) : ∃ es, HasLedger db es := by
  induction h with
  | fresh rows => exact ⟨[], rows, .nil, .nil, by simp⟩
  | call c _ ih =>
    obtain ⟨es, h⟩ := ih
    obtain ⟨es', h', -⟩ := h.leave c
    exact ⟨es', h'⟩
  | elsewhere _ had has taken ih =>
    obtain ⟨es, h⟩ := ih
    obtain rfl := (congrArg Table.rows (Option.some.inj (had.table.symm.trans h.rows.table)) :)
    obtain ⟨es', hsub, rfl⟩ := List.sublist_map_iff.mp taken
    exact ⟨es', has, h.ledger.ascending.sublist hsub, h.ledger.distinct.sublist hsub,
      fun e he => h.ledger.consistent e (hsub.subset he)⟩

/-- **Calls.** After calls there is a ledger of the merged ranges. -/
theorem HasLedger.leaveAll (h : HasLedger db es) (calls : List Call) :
    ∃ es', HasLedger (leaveAll calls db) es' ∧
      ∀ place, rangeAt es' place = mergeAll (rangeAt es place) (accepted place calls db) := by
  induction calls generalizing db es with
  | nil => exact ⟨es, h, fun _ => rfl⟩
  | cons c rest ih =>
    obtain ⟨es₁, h₁, hfirst⟩ := h.leave c
    obtain ⟨es₂, h₂, hrest⟩ := ih h₁
    refine ⟨es₂, h₂, fun place => ?_⟩
    rw [hrest, hfirst, accepted]
    by_cases hplace : (c.on db).isOk = true ∧ placeOf c.key = place
    · simp [hplace, mergeAll]
    · have htest : ((c.on db).isOk && decide (placeOf c.key = place)) = false := by
        rwa [Bool.and_eq_false_iff, decide_eq_false_iff_not, ← Bool.not_eq_true, ← not_and_or]
      simp [hplace, htest]

/-- **Histories merge.** Whatever clients report, in whatever order: for each key what is stored is
the merge, in their order, of what was stored and the ranges of the accepted calls for it, and so
the next call of any client finds it. In a table without rows nothing was stored. -/
theorem history_merges (h : Written db) (calls : List Call) :
    ∃ before : CheckpointKey → Option SyncRange, Holds db before ∧
      (HasRows db [] → ∀ key, before key = none) ∧
      let stored := fun key => mergeAll (before key) (accepted (placeOf key) calls db)
      Holds (leaveAll calls db) stored ∧ ∀ c, Serves (leaveAll calls db) stored c := by
  obtain ⟨es, h⟩ := h.exists_ledger
  obtain ⟨es', h', hranges⟩ := h.leaveAll calls
  refine ⟨_, h.holds, fun hnone key => ?_, ?_⟩
  · have hrows : es.map Entry.row = [] :=
      (congrArg Table.rows (Option.some.inj (h.rows.table.symm.trans hnone.table)) :)
    rw [List.map_eq_nil_iff.mp hrows]
    rfl
  · simp only [← hranges]
    exact ⟨h'.holds, h'.serves⟩

end Histories

/-- A database with the user 7 and no checkpoints. -/
def sharedDatabase : Database where
  tables :=
    [⟨"users", [⟨idColumn, .integer, true, some .autoincrement, .const .null⟩], [],
      [⟨7, [.int 7]⟩]⟩,
     tableWith []]
  indexes := uniqueIndexes
  triggers := [touch]
  sequence := some [("users", 7)]
  version := 4

/-- Reports of two clients. The third has a start behind the end, the fourth is about a user who is
not there, and the last one has an empty timeframe for none. -/
def reports : List Call :=
  let client (clock : Int) : Session := .start .empty clock
  let candles (owner : CheckpointOwner) (timeframe : Option String) : CheckpointKey :=
    ⟨owner, "candles", "tBTCUSD", timeframe⟩
  [⟨client 1, candles .everybody none, .base 100 200⟩,
    ⟨client 2, candles (.user 7 none) none, .base 5 6⟩,
    ⟨client 1, candles .everybody none, .current 300 250⟩,
    ⟨client 2, candles (.user 8 none) none, .base 1 2⟩,
    ⟨client 2, candles .everybody (some ""), .base 50 150⟩]

theorem history_merges_reports : Written sharedDatabase ∧
    get (leaveAll reports sharedDatabase) ⟨.everybody, "candles", "tBTCUSD", none⟩
      = .ok (some (.base 50 200)) := by
  have hrows : HasRows sharedDatabase [] := ⟨by decide +kernel, by decide +kernel, by decide +kernel⟩
  have hwritten : Written sharedDatabase := .fresh hrows
  obtain ⟨before, -, hnone, hafter, -⟩ := history_merges hwritten reports
  have haccepted : accepted (placeOf ⟨.everybody, "candles", "tBTCUSD", none⟩) reports
      sharedDatabase = [.base 100 200, .base 50 150] := by
    decide +kernel
  refine ⟨hwritten, ?_⟩
  rw [hafter.get_eq, hnone hrows, haccepted]
  rfl

end Checkpoints

end AccountHistory
