import AccountHistory.Proofs.CheckpointHistory
import AccountHistory.Proofs.Tracking

/-!
# Replaying checkpoints

What is fetched is noted twice: in the table, and in the collection of a run. When a program starts
again it reads the rows of an owner and a collection and reports them to a new collection. This gives
what the collection of the first run tracks: the same entries with the same ranges, in the same
order (`Checkpoints.load_replays`).

The table has no room for an empty timeframe beside none, so the two are one there. A collection
keeps them apart, and agrees with the table only as long as it is not told of an empty one
(`Checkpoints.load_replays_emptyTimeframe`).

* **The list** of an owner and a collection is `listed`, the entries in the order of their rows.
* **The step** is `Wrote.listed_eq`: what a write does to the list is what a report does to it.
-/

namespace AccountHistory

open Store

/-- Entries of different places are tracked as they are. -/
theorem Collection.withEntries_of_nodup {c : Collection} {entries : List TrackedRange}
    (h : ((c.tracked ++ entries).map TrackedRange.place).Nodup) :
    c.withEntries entries = { c with tracked := c.tracked ++ entries } := by
  induction entries generalizing c with
  | nil => rw [List.append_nil]; rfl
  | cons e rest ih =>
    have hnew : ∀ o ∈ c.tracked, o.place ≠ (e.symbol, e.timeframe) := by
      rw [List.map_append, List.nodup_append] at h
      exact fun o ho => h.2.2 _ (List.mem_map_of_mem ho) _ (List.mem_map_of_mem (.head rest))
    have hreport : (c.report e.symbol e.timeframe e.range).1
        = { c with tracked := c.tracked ++ [e] } := by
      rw [Collection.report, TrackedRange.mergeInto_of_forall_ne hnew]
    have hrest := ih (c := { c with tracked := c.tracked ++ [e] }) (by simpa using h)
    rw [Collection.withEntries, List.foldl_cons, hreport]
    refine hrest.trans ?_
    rw [List.append_assoc, List.singleton_append]

namespace Checkpoints

/-! ## Lists -/

/-- A timeframe as the table keeps it: an empty one is none. -/
def plain : Option String → Option String
  | some "" => none
  | timeframe => timeframe

/-- The accepted calls for an owner and a collection, as reports of what the table keeps. -/
def reported (owner : CheckpointOwner) (collection : String) :
    List Call → Database → List TrackedRange
  | [], _ => []
  | c :: rest, db =>
    if (c.on db).isOk ∧ c.key.owner = owner ∧ c.key.collection = collection then
      ⟨c.key.symbol, plain c.key.timeframe, c.report⟩ :: reported owner collection rest (c.leave db)
    else reported owner collection rest (c.leave db)

/-- The entries of an owner and a collection, in the order of their rows. -/
def listed (es : List Entry) (owner : CheckpointOwner) (collection : String) : List TrackedRange :=
  (es.filter fun e => e.place.owner = owner ∧ e.place.collection = collection).map
    fun e => e.stored.entry

section Lists

variable {db : Database} {es es' : List Entry} {e : Entry} {key : CheckpointKey}
  {owner : CheckpointOwner} {collection : String}

/-- A timeframe comes back from its column. -/
theorem plain_eq (timeframe : Option String) : plain timeframe
    = if timeframeText timeframe = "" then none else some (timeframeText timeframe) := by
  match timeframe with
  | none => rfl
  | some text =>
    by_cases h : text = ""
    · subst h
      rfl
    · simp [plain, timeframeText, h]

/-- Timeframes are kept alike if their texts are one. -/
theorem plain_eq_plain_iff {timeframe timeframe' : Option String} :
    plain timeframe = plain timeframe' ↔ timeframeText timeframe = timeframeText timeframe' := by
  have htext (timeframe : Option String) :
      timeframeText (plain timeframe) = timeframeText timeframe := by
    rw [plain_eq]
    split
    case isTrue h => exact h.symm
    case isFalse => rfl
  constructor
  · intro h
    rw [← htext, h, htext]
  · intro h
    rw [plain_eq, plain_eq, h]

/-- An entry of the owner and the collection of a key is listed under the symbol and timeframe of the
key if it is the one of the key. -/
theorem place_entry_iff (howner : e.place.owner = key.owner)
    (hcollection : e.place.collection = key.collection) :
    e.stored.entry.place = (key.symbol, plain key.timeframe) ↔ e.place = placeOf key := by
  have hplain : e.stored.entry.timeframe = plain (some e.place.timeframe) :=
    (plain_eq (some e.place.timeframe)).symm
  have htimeframe : e.stored.entry.timeframe = plain key.timeframe ↔
      e.place.timeframe = timeframeText key.timeframe := by
    rw [hplain, plain_eq_plain_iff]
    rfl
  rw [TrackedRange.place, Prod.mk.injEq, htimeframe, Place.ext_iff]
  exact (and_iff_right hcollection).symm.trans (and_iff_right howner).symm

/-- In a ledger, entries of one owner and collection have different symbols or timeframes. -/
theorem nodup_listed (h : HasLedger db es) (owner : CheckpointOwner) (collection : String) :
    ((listed es owner collection).map TrackedRange.place).Nodup := by
  obtain ⟨entries, hload, hnodup, -⟩ := h.holds.load_eq owner collection
  rw [load_eq_map h, Except.ok.injEq] at hload
  rw [listed, hload]
  exact hnodup

theorem listed_of_agree (h : Agree es es') :
    listed es owner collection = listed es' owner collection := by
  have hgist (es : List Entry) : listed es owner collection
      = ((es.map Entry.gist).filter fun g =>
          g.2.1.owner = owner ∧ g.2.1.collection = collection).map fun g =>
          StoredRange.entry ⟨g.1, g.2.1.symbol, g.2.1.timeframe, g.2.2⟩ := by
    rw [listed, List.filter_map, List.map_map]
    rfl
  rw [hgist, hgist, h]

/-- Another range for an entry leaves the list as it is, but for that range. -/
theorem listed_put (h : IsLedger es) (he : e ∈ es) (range : SyncRange) :
    listed (put { e with range } es) owner collection
      = (es.filter fun o => o.place.owner = owner ∧ o.place.collection = collection).map fun o =>
          if o.id = e.id then { e.stored.entry with range } else o.stored.entry := by
  have hplace : ∀ o ∈ es, (if o.id = e.id then { e with range } else o).place = o.place := by
    intro o ho
    split
    case isTrue hid => rw [h.eq_of_id ho he hid]
    case isFalse => rfl
  rw [listed, put, List.filter_map, List.map_map]
  refine (List.map_congr_left fun o _ => ?_).trans
    (congrArg _ (List.filter_congr fun o ho => ?_))
  · exact (apply_ite (fun o : Entry => o.stored.entry) _ _ _).trans rfl
  · simp only [Function.comp_apply, hplace o ho]

/-! ## The step -/

/-- A write for another owner or collection is not seen in a list. -/
theorem Wrote.listed_of_not {range : SyncRange} (hwrote : Wrote es key range es')
    (h : IsLedger es) (hother : ¬(key.owner = owner ∧ key.collection = collection)) :
    listed es' owner collection = listed es owner collection := by
  cases hwrote with
  | @added e _ hplace _ =>
    have hnot : ¬(e.place.owner = owner ∧ e.place.collection = collection) := hplace ▸ hother
    rw [listed, listed, List.filter_append, List.filter_singleton]
    simp [hnot]
  | @changed e _ he hplace agree =>
    rw [listed_of_agree agree, listed_put h he, listed]
    refine List.map_congr_left fun o ho => if_neg fun hid => ?_
    obtain ⟨ho, hof⟩ := List.mem_filter.mp ho
    rw [h.eq_of_id ho he hid, hplace] at hof
    exact hother (of_decide_eq_true hof)

/-- **The step.** What a write does to a list is what a report does to it. -/
theorem Wrote.listed_eq {report : SyncRange}
    (hwrote : Wrote es key (mergeInto (rangeAt es (placeOf key)) report) es')
    (h : HasLedger db es) : listed es' key.owner key.collection
      = (TrackedRange.mergeInto key.symbol (plain key.timeframe) report
          (listed es key.owner key.collection)).1 := by
  cases hwrote with
  | @added e free hplace hrange =>
    have hnew : ∀ o ∈ listed es key.owner key.collection,
        o.place ≠ (key.symbol, plain key.timeframe) := by
      intro o ho heq
      obtain ⟨e', he', rfl⟩ := List.mem_map.mp ho
      obtain ⟨he', hof⟩ := List.mem_filter.mp he'
      rw [decide_eq_true_eq] at hof
      exact free e' he' ((place_entry_iff hof.1 hof.2).mp heq)
    have hnone : rangeAt es (placeOf key) = none := by
      rw [rangeAt, Option.map_eq_none_iff, List.find?_eq_none]
      exact fun o ho heq => free o ho (of_decide_eq_true heq)
    rw [hnone] at hrange
    have hentry : e.stored.entry = ⟨key.symbol, plain key.timeframe, report⟩ := by
      rw [StoredRange.entry, Entry.stored, plain_eq, hplace, hrange]
      rfl
    rw [TrackedRange.mergeInto_of_forall_ne hnew, listed, listed, List.filter_append,
      List.filter_singleton]
    simp [hplace, placeOf, hentry]
  | @changed e _ he hplace agree =>
    have hof : e.place.owner = key.owner ∧ e.place.collection = key.collection := by
      rw [hplace]
      exact ⟨rfl, rfl⟩
    have hentry : e.stored.entry ∈ listed es key.owner key.collection :=
      List.mem_map_of_mem (List.mem_filter.mpr ⟨he, decide_eq_true hof⟩)
    have hrange : rangeAt es (placeOf key) = some e.range := hplace ▸ rangeAt_of_mem h.ledger he
    rw [listed_of_agree agree, listed_put h.ledger he, TrackedRange.mergeInto_of_mem
      (nodup_listed h _ _) hentry ((place_entry_iff hof.1 hof.2).mpr hplace), hrange, listed,
      List.map_map]
    refine List.map_congr_left fun o ho => ?_
    obtain ⟨ho, hof'⟩ := List.mem_filter.mp ho
    rw [decide_eq_true_eq] at hof'
    have hsame := place_entry_iff hof'.1 hof'.2
    by_cases hid : o.id = e.id
    · obtain rfl := h.ledger.eq_of_id ho he hid
      rw [if_pos rfl, Function.comp_apply, if_pos (hsame.mpr hplace)]
      rfl
    · rw [if_neg hid, Function.comp_apply, if_neg]
      exact fun heq => hid (congrArg Entry.id
        (h.ledger.eq_of_place ho he ((hsame.mp heq).trans hplace.symm)))

end Lists

/-! ## Runs -/

section Runs

variable {db : Database} {es : List Entry}

/-- What a call leaves: a list that an accepted call for its owner and collection is merged into, and
the same list otherwise. -/
theorem HasLedger.leave_listed (h : HasLedger db es) (c : Call) :
    ∃ es', HasLedger (c.leave db) es' ∧ ∀ owner collection, listed es' owner collection
      = if (c.on db).isOk ∧ c.key.owner = owner ∧ c.key.collection = collection then
          (TrackedRange.mergeInto c.key.symbol (plain c.key.timeframe) c.report
            (listed es owner collection)).1
        else listed es owner collection := by
  rw [Call.leave]
  generalize hon : c.on db = outcome
  cases hon ▸ c.on_answers h with
  | accepted _ after wrote =>
    refine ⟨_, after, fun owner collection => ?_⟩
    by_cases hof : c.key.owner = owner ∧ c.key.collection = collection
    · rw [if_pos ⟨rfl, hof⟩]
      obtain ⟨rfl, rfl⟩ := hof
      exact wrote.listed_eq h
    · rw [if_neg fun hall => hof hall.2]
      exact wrote.listed_of_not h.ledger hof
  | inconsistent => exact ⟨es, h, fun _ _ => (if_neg fun hall => Bool.false_ne_true hall.1).symm⟩
  | failed => exact ⟨es, h, fun _ _ => (if_neg fun hall => Bool.false_ne_true hall.1).symm⟩

/-- **Runs.** A collection that tracks a list, and takes the reports of accepted calls, tracks the
list that the calls leave. -/
theorem HasLedger.leaveAll_listed (h : HasLedger db es) (calls : List Call)
    (owner : CheckpointOwner) (collection : String) :
    ∃ es', HasLedger (Checkpoints.leaveAll calls db) es' ∧ ∀ c : Collection,
      c.tracked = listed es owner collection → c.withEntries (reported owner collection calls db)
        = { c with tracked := listed es' owner collection } := by
  induction calls generalizing db es with
  | nil => exact ⟨es, h, fun c hc => by rw [← hc]; rfl⟩
  | cons call rest ih =>
    obtain ⟨es₁, h₁, hfirst⟩ := h.leave_listed call
    obtain ⟨es₂, h₂, hrest⟩ := ih h₁
    refine ⟨es₂, h₂, fun c hc => ?_⟩
    have hlisted := hfirst owner collection
    rw [reported]
    split
    case isTrue hcall =>
      rw [if_pos hcall, ← hc] at hlisted
      exact hrest (c.report _ _ _).1 hlisted.symm
    case isFalse hcall =>
      rw [if_neg hcall, ← hc] at hlisted
      exact hrest c hlisted.symm

/-- **Replaying.** The table of checkpoints is empty, and clients report ranges in any order. Then
what is read of an owner and a collection, replayed into a collection that tracks nothing, makes it
track what it would track if it had taken the reports of the accepted calls itself: the same entries
with the same ranges, in the same order. An empty timeframe is reported as none. -/
theorem load_replays (h : HasRows db []) (calls : List Call) (owner : CheckpointOwner)
    (collection : String) {c : Collection} (hnew : c.tracked = []) :
    ∃ entries, load (leaveAll calls db) owner collection = .ok entries ∧
      c.withEntries entries = { c with tracked := entries } ∧
      c.withEntries entries = c.withEntries (reported owner collection calls db) := by
  have hledger : HasLedger db [] := ⟨h, .nil, .nil, by simp⟩
  obtain ⟨es, hes, hreported⟩ := hledger.leaveAll_listed calls owner collection
  refine ⟨listed es owner collection, load_eq_map hes owner collection, ?_⟩
  have hreplayed : c.withEntries (listed es owner collection)
      = { c with tracked := listed es owner collection } := by
    rw [Collection.withEntries_of_nodup] <;> rw [hnew, List.nil_append]
    exact nodup_listed hes owner collection
  exact ⟨hreplayed, hreplayed.trans (hreported c hnew).symm⟩

end Runs

/-- Reports of two symbols in turn, and of a user. The last one has a start behind the end. -/
def turns : List Call :=
  let client : Session := .start .empty 1
  let key (owner : CheckpointOwner) (symbol : String) (timeframe : Option String) : CheckpointKey :=
    ⟨owner, "candles", symbol, timeframe⟩
  [⟨client, key .everybody "tETHUSD" (some "1m"), .base 100 200⟩,
    ⟨client, key .everybody "tBTCUSD" (some ""), .base 5 6⟩,
    ⟨client, key (.user 7 none) "tETHUSD" none, .base 1 2⟩,
    ⟨client, key .everybody "tETHUSD" (some "1m"), .base 50 150⟩,
    ⟨client, key .everybody "tBTCUSD" none, .current 300 250⟩]

theorem load_replays_turns : HasRows sharedDatabase [] ∧ Progress.candles.tracked = [] ∧
    ∃ entries, load (leaveAll turns sharedDatabase) .everybody "candles" = .ok entries ∧
      (Progress.candles.withEntries entries).tracked
        = [⟨"tETHUSD", some "1m", .base 50 200⟩, ⟨"tBTCUSD", none, .base 5 6⟩] := by
  have hrows : HasRows sharedDatabase [] := ⟨by decide +kernel, by decide +kernel, by decide +kernel⟩
  have hnew : Progress.candles.tracked = [] := rfl
  obtain ⟨entries, hload, -, hsame⟩ := load_replays hrows turns .everybody "candles" hnew
  have hreported : reported .everybody "candles" turns sharedDatabase
      = [⟨"tETHUSD", some "1m", .base 100 200⟩, ⟨"tBTCUSD", none, .base 5 6⟩,
        ⟨"tETHUSD", some "1m", .base 50 150⟩] := by
    decide +kernel
  refine ⟨hrows, hnew, entries, hload, ?_⟩
  rw [hsame, hreported]
  decide

/-- A report with an empty timeframe. -/
def emptyTimeframe : Call :=
  ⟨.start .empty 1, ⟨.everybody, "candles", "tBTCUSD", some ""⟩, .base 100 200⟩

/-- A collection that is told of an empty timeframe tracks another entry than the table lists. -/
theorem load_replays_emptyTimeframe : HasRows sharedDatabase [] ∧
    (emptyTimeframe.on sharedDatabase).isOk = true ∧ Progress.candles.tracked = [] ∧
    ∃ entries, load (leaveAll [emptyTimeframe] sharedDatabase) .everybody "candles" = .ok entries ∧
      Progress.candles.withEntries entries
        ≠ Progress.candles.withEntries [⟨"tBTCUSD", some "", .base 100 200⟩] := by
  refine ⟨⟨by decide +kernel, by decide +kernel, by decide +kernel⟩, by decide +kernel, rfl,
    [⟨"tBTCUSD", none, .base 100 200⟩], by decide +kernel, by decide⟩

end Checkpoints

end AccountHistory
