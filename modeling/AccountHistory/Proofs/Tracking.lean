import AccountHistory.Proofs.Coverage
import AccountHistory.Proofs.Lists
import AccountHistory.Sync.Checkpoints

/-!
# What reports add up to

A collection that starts without entries and takes reports of any places, in any order and with
repetitions, has in the end what can be said without merging:

* `SyncRange.hull` is the earliest of all starts and the latest of all ends that are there;
* `TrackedRange.gathered` is one entry for each place that was reported, in the order in which the
  places came first, with the hull of all ranges reported for it;
* a report merged into what is gathered gives what is gathered with the report at the end
  (`Collection.report_gathered`), so this is what a collection tracks after any reports
  (`Collection.reports_gather`). Nothing in it depends on repetitions, and the ranges do not depend
  on the order.
-/

namespace AccountHistory

/-! ## Times -/

/-- The earliest of times does not depend on their order. -/
theorem min?_congr {l l' : List Int} (h : l.Perm l') : l.min? = l'.min? := by
  ext t
  rw [List.min?_eq_some_iff, List.min?_eq_some_iff, h.mem_iff]
  simp only [h.mem_iff]

theorem max?_congr {l l' : List Int} (h : l.Perm l') : l.max? = l'.max? := by
  ext t
  rw [List.max?_eq_some_iff, List.max?_eq_some_iff, h.mem_iff]
  simp only [h.mem_iff]

/-! ## Ranges -/

namespace SyncRange

/-- The earliest starts and the latest ends of all ranges that have one. -/
def hull (ranges : List SyncRange) : SyncRange where
  baseFrom := (ranges.filterMap baseFrom).min?
  baseTo := (ranges.filterMap baseTo).max?
  currFrom := (ranges.filterMap currFrom).min?
  currTo := (ranges.filterMap currTo).max?

/-- Each bound of the second range is there in the first one, and not beyond it. -/
structure Covers (r s : SyncRange) : Prop where
  /-- the first pass starts no later -/
  baseFrom : ∀ t, s.baseFrom = some t → ∃ t', r.baseFrom = some t' ∧ t' ≤ t
  /-- the first pass ends no earlier -/
  baseTo : ∀ t, s.baseTo = some t → ∃ t', r.baseTo = some t' ∧ t ≤ t'
  /-- the current pass starts no later -/
  currFrom : ∀ t, s.currFrom = some t → ∃ t', r.currFrom = some t' ∧ t' ≤ t
  /-- the current pass ends no earlier -/
  currTo : ∀ t, s.currTo = some t → ∃ t', r.currTo = some t' ∧ t ≤ t'

variable {r s : SyncRange} {ranges ranges' : List SyncRange}

theorem min?_concat (ts : List Int) (t : Int) :
    (ts ++ [t]).min? = earliest ts.min? (some t) := by
  cases ts with
  | nil => rfl
  | cons first rest =>
    rw [List.cons_append, List.min?_cons', List.foldl_append, List.min?_cons']
    rfl

theorem min?_filterMap_concat (f : SyncRange → Option Int) :
    ((ranges ++ [r]).filterMap f).min? = earliest (ranges.filterMap f).min? (f r) := by
  rw [List.filterMap_append, List.filterMap_cons, List.filterMap_nil]
  cases f r with
  | none => rw [List.append_nil, earliest_comm]; rfl
  | some t => exact min?_concat _ t

theorem max?_filterMap_concat (f : SyncRange → Option Int) :
    ((ranges ++ [r]).filterMap f).max? = latest (ranges.filterMap f).max? (f r) := by
  rw [List.filterMap_append, List.filterMap_cons, List.filterMap_nil]
  cases f r with
  | none => rw [List.append_nil, latest_comm]; rfl
  | some t => exact max?_concat _ t

/-- One more range is merged. -/
theorem hull_concat (ranges : List SyncRange) (r : SyncRange) :
    hull (ranges ++ [r]) = (hull ranges).merge r := by
  simp only [hull, merge, min?_filterMap_concat, max?_filterMap_concat]

theorem hull_singleton (r : SyncRange) : hull [r] = r :=
  hull_concat [] r

/-- The hull does not depend on the order. -/
theorem hull_congr (h : ranges.Perm ranges') : hull ranges = hull ranges' := by
  simp only [hull, min?_congr (h.filterMap _), max?_congr (h.filterMap _)]

theorem earliest_eq_left_iff {a b : Option Int} :
    earliest a b = a ↔ ∀ t, b = some t → ∃ t', a = some t' ∧ t' ≤ t := by
  cases b with
  | none => exact iff_of_true (by rw [earliest_comm]; rfl) nofun
  | some t =>
    cases a with
    | none => exact iff_of_false nofun fun h => nomatch h t rfl
    | some t' =>
      have hkept : earliest (some t') (some t) = some t' ↔ t' ≤ t := by
        rw [earliest, Option.some.injEq]
        omega
      rw [hkept]
      constructor
      · rintro h _ ⟨⟩
        exact ⟨t', rfl, h⟩
      · intro h
        obtain ⟨_, ⟨⟩, h⟩ := h t rfl
        exact h

theorem latest_eq_left_iff {a b : Option Int} :
    latest a b = a ↔ ∀ t, b = some t → ∃ t', a = some t' ∧ t ≤ t' := by
  cases b with
  | none => exact iff_of_true (by rw [latest_comm]; rfl) nofun
  | some t =>
    cases a with
    | none => exact iff_of_false nofun fun h => nomatch h t rfl
    | some t' =>
      have hkept : latest (some t') (some t) = some t' ↔ t ≤ t' := by
        rw [latest, Option.some.injEq]
        omega
      rw [hkept]
      constructor
      · rintro h _ ⟨⟩
        exact ⟨t', rfl, h⟩
      · intro h
        obtain ⟨_, ⟨⟩, h⟩ := h t rfl
        exact h

/-- Merging moves no bound if all of them are covered. -/
theorem merge_eq_left_iff : r.merge s = r ↔ r.Covers s := by
  constructor
  · intro h
    exact ⟨earliest_eq_left_iff.mp (congrArg SyncRange.baseFrom h),
      latest_eq_left_iff.mp (congrArg SyncRange.baseTo h),
      earliest_eq_left_iff.mp (congrArg SyncRange.currFrom h),
      latest_eq_left_iff.mp (congrArg SyncRange.currTo h)⟩
  · rintro ⟨hbaseFrom, hbaseTo, hcurrFrom, hcurrTo⟩
    rw [merge, earliest_eq_left_iff.mpr hbaseFrom, latest_eq_left_iff.mpr hbaseTo,
      earliest_eq_left_iff.mpr hcurrFrom, latest_eq_left_iff.mpr hcurrTo]

/-- A hull covers each of its ranges. -/
theorem covers_of_mem (h : r ∈ ranges) : (hull ranges).Covers r := by
  obtain ⟨before, after, rfl⟩ := List.append_of_mem h
  have hperm : (before ++ r :: after).Perm ((before ++ after) ++ [r]) :=
    List.perm_middle.trans (List.perm_append_singleton r _).symm
  rw [← merge_eq_left_iff, hull_congr hperm, hull_concat, merge_assoc, merge_self]

end SyncRange

/-! ## Entries -/

namespace TrackedRange

/-- The symbol and the timeframe of an entry. -/
def place (e : TrackedRange) : String × Option String := (e.symbol, e.timeframe)

/-- The ranges reported for a place. -/
def rangesAt (reports : List TrackedRange) (p : String × Option String) : List SyncRange :=
  (reports.filter fun e => e.place = p).map range

/-- One entry for each place, in the order in which the places come first. -/
def gathered (reports : List TrackedRange) : List TrackedRange :=
  (reports.map place).eraseDups.map fun p => ⟨p.1, p.2, .hull (rangesAt reports p)⟩

variable {e : TrackedRange} {entries reports others : List TrackedRange} {symbol : String}
  {timeframe : Option String} {range : SyncRange}

theorem isFor_iff_place : e.isFor symbol timeframe = true ↔ e.place = (symbol, timeframe) := by
  rw [isFor_iff, place, Prod.mk.injEq]

/-- A report of a new place becomes an entry at the end. -/
theorem mergeInto_of_forall_ne (h : ∀ e ∈ entries, e.place ≠ (symbol, timeframe)) :
    mergeInto symbol timeframe range entries
      = (entries ++ [⟨symbol, timeframe, range⟩], .inserted) := by
  induction entries with
  | nil => rfl
  | cons e rest ih =>
    have hne : ¬e.isFor symbol timeframe = true := fun hfor =>
      h e (.head rest) (isFor_iff_place.mp hfor)
    rw [mergeInto, if_neg hne, ih fun o ho => h o (.tail e ho)]
    rfl

/-- A report of a place that has an entry is merged into it; no other entry has the place. -/
theorem mergeInto_of_mem (hnodup : (entries.map place).Nodup) (he : e ∈ entries)
    (hplace : e.place = (symbol, timeframe)) :
    mergeInto symbol timeframe range entries
      = (entries.map fun o =>
          if o.place = (symbol, timeframe) then { o with range := o.range.merge range } else o,
        .merged (e.range.merge range != e.range)) := by
  induction entries with
  | nil => cases he
  | cons o rest ih =>
    rw [List.map_cons, List.nodup_cons] at hnodup
    rw [mergeInto, List.map_cons]
    rcases List.mem_cons.mp he with rfl | he
    · -- the entry is the first one, so the others are of other places
      have hothers : ∀ o ∈ rest, o.place ≠ (symbol, timeframe) := fun o ho heq =>
        hnodup.1 (hplace ▸ heq ▸ List.mem_map_of_mem ho)
      rw [if_pos (isFor_iff_place.mpr hplace), if_pos hplace,
        List.map_congr_left fun o ho => if_neg (hothers o ho), List.map_id']
    · have hne : o.place ≠ (symbol, timeframe) := fun heq =>
        hnodup.1 (heq ▸ hplace ▸ List.mem_map_of_mem he)
      rw [if_neg fun hfor => hne (isFor_iff_place.mp hfor), if_neg hne, ih hnodup.2 he]

/-! ## Gathering -/

theorem place_gathered (reports : List TrackedRange) :
    (gathered reports).map place = (reports.map place).eraseDups := by
  rw [gathered, List.map_map]
  exact List.map_id _

theorem rangesAt_concat (p : String × Option String) : rangesAt (reports ++ [e]) p
    = rangesAt reports p ++ if e.place = p then [e.range] else [] := by
  rw [rangesAt, List.filter_append, List.map_append, List.filter_cons, List.filter_nil,
    apply_ite (List.map range)]
  simp only [decide_eq_true_eq]
  rfl

theorem mem_gathered {p : String × Option String} (h : p ∈ reports.map place) :
    (⟨p.1, p.2, .hull (rangesAt reports p)⟩ : TrackedRange) ∈ gathered reports :=
  List.mem_map_of_mem (List.mem_eraseDups.mpr h)

/-- A report of a new place is gathered last. -/
theorem mergeInto_gathered_of_not_mem (h : e.place ∉ reports.map place) :
    mergeInto e.symbol e.timeframe e.range (gathered reports)
      = (gathered (reports ++ [e]), .inserted) := by
  have hnew : ∀ o ∈ gathered reports, o.place ≠ (e.symbol, e.timeframe) := by
    intro o ho heq
    have hmem : o.place ∈ (gathered reports).map place := List.mem_map_of_mem ho
    rw [place_gathered, List.mem_eraseDups, heq] at hmem
    exact h hmem
  have hnone : rangesAt reports e.place = [] := by
    rw [rangesAt, List.map_eq_nil_iff, List.filter_eq_nil_iff]
    intro o ho heq
    exact h (of_decide_eq_true heq ▸ List.mem_map_of_mem ho)
  rw [mergeInto_of_forall_ne hnew, gathered, gathered, List.map_append, List.map_singleton,
    eraseDups_concat_of_not_mem h, List.map_append, List.map_singleton]
  refine congrArg (·, MergeResult.inserted) (congrArg₂ (· ++ ·) ?_ ?_)
  · -- the places before it have no range more
    refine List.map_congr_left fun p hp => ?_
    have hne : e.place ≠ p := fun heq => h (heq ▸ List.mem_eraseDups.mp hp)
    rw [rangesAt_concat, if_neg hne, List.append_nil]
  · rw [rangesAt_concat, if_pos rfl, hnone, List.nil_append, SyncRange.hull_singleton]
    rfl

/-- A report of a place that was reported before widens its hull. -/
theorem mergeInto_gathered_of_mem (h : e.place ∈ reports.map place) :
    mergeInto e.symbol e.timeframe e.range (gathered reports)
      = (gathered (reports ++ [e]), .merged
          ((SyncRange.hull (rangesAt reports e.place)).merge e.range
            != SyncRange.hull (rangesAt reports e.place))) := by
  have hnodup : ((gathered reports).map place).Nodup := by
    rw [place_gathered]
    exact nodup_eraseDups _
  have hmerge : mergeInto e.symbol e.timeframe e.range (gathered reports) = _ :=
    mergeInto_of_mem hnodup (mem_gathered h) rfl
  rw [hmerge, gathered, gathered, List.map_append, List.map_singleton, eraseDups_concat_of_mem h,
    List.map_map]
  refine congrArg (·, MergeResult.merged _) (List.map_congr_left fun p _ => ?_)
  rw [rangesAt_concat]
  by_cases hp : e.place = p
  · subst hp
    rw [if_pos rfl, SyncRange.hull_concat]
    exact if_pos rfl
  · rw [if_neg hp, List.append_nil]
    exact if_neg fun heq => hp heq.symm

/-- A report that is covered changes nothing. -/
theorem gathered_concat_of_covers (h : e.place ∈ reports.map place)
    (hcovers : (SyncRange.hull (rangesAt reports e.place)).Covers e.range) :
    gathered (reports ++ [e]) = gathered reports := by
  rw [gathered, gathered, List.map_append, List.map_singleton, eraseDups_concat_of_mem h]
  refine List.map_congr_left fun p _ => ?_
  rw [rangesAt_concat]
  by_cases hp : e.place = p
  · subst hp
    rw [if_pos rfl, SyncRange.hull_concat, SyncRange.merge_eq_left_iff.mpr hcovers]
  · rw [if_neg hp, List.append_nil]

/-- What is gathered of a place is the hull of its ranges, if there are any. -/
theorem trackedRange?_gathered (p : String × Option String) :
    trackedRange? (gathered reports) p.1 p.2
      = if p ∈ reports.map place then some (.hull (rangesAt reports p)) else none := by
  have hfor : (fun o : TrackedRange => o.isFor p.1 p.2)
      ∘ (fun q => ⟨q.1, q.2, .hull (rangesAt reports q)⟩) = fun q => decide (q = p) := by
    funext q
    rw [Bool.eq_iff_iff, decide_eq_true_eq]
    exact isFor_iff_place
  rw [trackedRange?, gathered, List.find?_map, hfor, Option.map_map]
  split
  case isTrue h =>
    have hfind : (reports.map place).eraseDups.find? (fun q => decide (q = p)) = some p := by
      cases hfind : (reports.map place).eraseDups.find? fun q => decide (q = p) with
      | none => simpa [h] using List.find?_eq_none.mp hfind p
      | some q =>
        have hq : decide (q = p) = true := List.find?_some (p := fun q => decide (q = p)) hfind
        rw [of_decide_eq_true hq]
    rw [hfind]
    rfl
  case isFalse h =>
    have hnone : (reports.map place).eraseDups.find? (fun q => decide (q = p)) = none := by
      refine List.find?_eq_none.mpr fun q hq heq => ?_
      rw [of_decide_eq_true heq, List.mem_eraseDups] at hq
      exact h hq
    rw [hnone]
    rfl

end TrackedRange

/-! ## Collections -/

namespace Collection

open TrackedRange

variable {c : Collection} {e : TrackedRange} {reports : List TrackedRange}

theorem withEntries_concat : c.withEntries (reports ++ [e])
    = ((c.withEntries reports).report e.symbol e.timeframe e.range).1 := by
  rw [withEntries, List.foldl_append]
  rfl

/-- **A report.** It is gathered last, and is new if its place is. -/
theorem report_gathered (h : c.tracked = gathered reports) :
    c.report e.symbol e.timeframe e.range = ({ c with tracked := gathered (reports ++ [e]) },
      if e.place ∈ reports.map place then
        .merged ((SyncRange.hull (rangesAt reports e.place)).merge e.range
          != SyncRange.hull (rangesAt reports e.place))
      else .inserted) := by
  rw [report, h]
  by_cases hmem : e.place ∈ reports.map place
  · rw [mergeInto_gathered_of_mem hmem, if_pos hmem]
  · rw [mergeInto_gathered_of_not_mem hmem, if_neg hmem]

/-- The range of a place is the hull of what was reported for it. -/
theorem trackedRange?_of_gathered (h : c.tracked = gathered reports) (p : String × Option String) :
    c.trackedRange? p.1 p.2
      = if p ∈ reports.map place then some (.hull (rangesAt reports p)) else none := by
  rw [trackedRange?, h, trackedRange?_gathered]

/-- A report is new if its place is. -/
theorem report_eq_inserted_iff (h : c.tracked = gathered reports) :
    (c.report e.symbol e.timeframe e.range).2 = .inserted ↔ e.place ∉ reports.map place := by
  rw [report_gathered h]
  by_cases hmem : e.place ∈ reports.map place
  · rw [if_pos hmem]
    exact iff_of_false MergeResult.noConfusion (not_not_intro hmem)
  · rw [if_neg hmem]
    exact iff_of_true rfl hmem

/-- A report moves nothing if it is covered. -/
theorem report_eq_unmoved_iff (h : c.tracked = gathered reports) :
    (c.report e.symbol e.timeframe e.range).2 = .merged false ↔
      ∃ range, c.trackedRange? e.symbol e.timeframe = some range ∧ range.Covers e.range := by
  have hplace : c.trackedRange? e.symbol e.timeframe = _ := trackedRange?_of_gathered h e.place
  rw [report_gathered h, hplace]
  by_cases hmem : e.place ∈ reports.map place
  · rw [if_pos hmem, if_pos hmem]
    simp [← SyncRange.merge_eq_left_iff]
  · rw [if_neg hmem, if_neg hmem]
    simp

/-- To repeat a report changes nothing. -/
theorem report_of_mem (h : c.tracked = gathered reports) (he : e ∈ reports) :
    c.report e.symbol e.timeframe e.range = (c, .merged false) := by
  have hmem : e.place ∈ reports.map place := List.mem_map_of_mem he
  have hcovers : (SyncRange.hull (rangesAt reports e.place)).Covers e.range :=
    SyncRange.covers_of_mem (List.mem_map_of_mem (List.mem_filter.mpr ⟨he, decide_eq_true rfl⟩))
  rw [report_gathered h, gathered_concat_of_covers hmem hcovers, if_pos hmem,
    SyncRange.merge_eq_left_iff.mpr hcovers, bne_self_eq_false, ← h]

/-- **Gathering.** After any reports a new collection tracks what is gathered of them, and nothing
else of it has changed. -/
theorem withEntries_eq (hnew : c.tracked = []) (reports : List TrackedRange) :
    c.withEntries reports = { c with tracked := gathered reports } := by
  induction reports using List.reverseRecOn with
  | nil =>
    obtain ⟨⟩ := c
    obtain rfl := hnew
    rfl
  | append_singleton reports e ih =>
    rw [withEntries_concat, ih, report_gathered rfl]

/-- **What reports add up to.** A collection that tracks nothing takes reports of any places and
ranges. Then it has one entry for each place, in the order in which the places came first, and the
range of a place has the earliest of all starts and the latest of all ends reported for it, as far
as there are any; nothing else has changed. To one more report it says that the place is new if it
is, and that nothing has moved if what is tracked covers the range. To repeat a report changes
nothing, and reports in another order leave the same ranges. -/
theorem reports_gather (hnew : c.tracked = []) (reports : List TrackedRange) :
    let after := c.withEntries reports
    after = { c with tracked := after.tracked } ∧
      after.tracked.map place = (reports.map place).eraseDups ∧
      (∀ p : String × Option String, after.trackedRange? p.1 p.2 =
        if p ∈ reports.map place then some (.hull (rangesAt reports p)) else none) ∧
      (∀ e : TrackedRange,
        ((after.report e.symbol e.timeframe e.range).2 = .inserted ↔
          e.place ∉ reports.map place) ∧
        ((after.report e.symbol e.timeframe e.range).2 = .merged false ↔
          ∃ range, after.trackedRange? e.symbol e.timeframe = some range ∧
            range.Covers e.range)) ∧
      (∀ e ∈ reports, after.report e.symbol e.timeframe e.range = (after, .merged false)) ∧
      ∀ others : List TrackedRange, others.Perm reports → ∀ symbol timeframe,
        (c.withEntries others).trackedRange? symbol timeframe
          = after.trackedRange? symbol timeframe := by
  intro after
  have hafter : after = { c with tracked := gathered reports } := withEntries_eq hnew reports
  have htracked : after.tracked = gathered reports := by rw [hafter]
  refine ⟨by rw [htracked, hafter], by rw [htracked, place_gathered],
    trackedRange?_of_gathered htracked,
    fun e => ⟨report_eq_inserted_iff htracked, report_eq_unmoved_iff htracked⟩,
    fun e he => report_of_mem htracked he, fun others hperm symbol timeframe => ?_⟩
  have hothers : (c.withEntries others).tracked = gathered others := by rw [withEntries_eq hnew]
  have hplaces : (symbol, timeframe) ∈ others.map place ↔ (symbol, timeframe) ∈ reports.map place :=
    (hperm.map place).mem_iff
  have hranges : (rangesAt others (symbol, timeframe)).Perm (rangesAt reports (symbol, timeframe)) :=
    (hperm.filter _).map range
  have hleft := trackedRange?_of_gathered hothers (symbol, timeframe)
  have hright := trackedRange?_of_gathered htracked (symbol, timeframe)
  rw [hleft, hright]
  simp only [hplaces, SyncRange.hull_congr hranges]

/-- Reports of three places; bounds are missing, zero or negative, and one range is unset. -/
def mixedReports : List TrackedRange :=
  [⟨"tBTCUSD", some "1m", .base 100 200⟩, ⟨"tETHUSD", none, .base (-5) 0⟩,
    ⟨"tBTCUSD", some "1m", .current 150 300⟩, ⟨"tBTCUSD", none, .unset⟩,
    ⟨"tBTCUSD", some "1m", .base 50 150⟩]

theorem reports_gather_mixed :
    Progress.candles.tracked = [] ∧
      (Progress.candles.withEntries mixedReports).tracked.map place
        = [("tBTCUSD", some "1m"), ("tETHUSD", none), ("tBTCUSD", none)] ∧
      (Progress.candles.withEntries mixedReports.reverse).trackedRange? "tBTCUSD" (some "1m")
        = some ⟨some 50, some 200, some 150, some 300⟩ := by
  have hnew : Progress.candles.tracked = [] := rfl
  obtain ⟨-, hplaces, hranges, -, -, horder⟩ := reports_gather hnew mixedReports
  refine ⟨hnew, ?_, ?_⟩
  · rw [hplaces]
    decide
  · have hrange := hranges ("tBTCUSD", some "1m")
    rw [horder _ (List.reverse_perm _), hrange]
    decide

end Collection

end AccountHistory
