import AccountHistory.Proofs.Tracking

/-!
# Ranges that cross

A range is consistent if neither of its passes starts after its end. Merging takes the earliest
start and the latest end, each from wherever it was reported, and looks at no pair of them. So a
start that comes in one report and an end that comes in another may be the wrong way round, though
neither report is.

* `SyncRange.HasCrossed` says when this happens, without merging: a pass has starts and ends, and
  every start is later than every end;
* what is tracked after reports is consistent just for the places whose reports have not crossed
  (`TrackedRange.isConsistent_gathered_iff`). A report may cross the others and a later one undo it,
  so `Collection.staysConsistent_iff` is about what is tracked after each report;
* reports that say both bounds of a pass or none never cross.
-/

namespace AccountHistory

/-! ## Starts and ends -/

namespace SyncRange

variable {ranges : List SyncRange} {r : SyncRange} {starts ends : List Int}

/-- There are starts and ends, and every start is later than every end. -/
def AllLater (starts ends : List Int) : Prop :=
  starts ≠ [] ∧ ends ≠ [] ∧ ∀ a ∈ starts, ∀ b ∈ ends, b < a

/-- The earliest start does not come after the latest end, unless every start comes after every end.
-/
theorem ordered_min?_max?_iff :
    ordered starts.min? ends.max? = true ↔ ¬AllLater starts ends := by
  cases hstart : starts.min? with
  | none => exact iff_of_true rfl fun h => h.1 (List.min?_eq_none_iff.mp hstart)
  | some a =>
    cases hend : ends.max? with
    | none => exact iff_of_true rfl fun h => h.2.1 (List.max?_eq_none_iff.mp hend)
    | some b =>
      obtain ⟨ha, hleast⟩ := List.min?_eq_some_iff.mp hstart
      obtain ⟨hb, hgreatest⟩ := List.max?_eq_some_iff.mp hend
      rw [ordered, decide_eq_true_eq]
      constructor
      · intro hle hlater
        have hlt := hlater.2.2 a ha b hb
        omega
      · intro hnot
        by_contra hlt
        refine hnot ⟨List.ne_nil_of_mem ha, List.ne_nil_of_mem hb, fun a' ha' b' hb' => ?_⟩
        have hle := hleast a' ha'
        have hge := hgreatest b' hb'
        omega

/-- In one of the passes, every start that a range has is later than every end that one has. -/
def HasCrossed (ranges : List SyncRange) : Prop :=
  AllLater (ranges.filterMap baseFrom) (ranges.filterMap baseTo) ∨
    AllLater (ranges.filterMap currFrom) (ranges.filterMap currTo)

/-- The hull of ranges is consistent unless they have crossed. -/
theorem isConsistent_hull_iff : (hull ranges).isConsistent = true ↔ ¬HasCrossed ranges := by
  rw [isConsistent, Bool.and_eq_true, hull, ordered_min?_max?_iff, ordered_min?_max?_iff,
    HasCrossed, not_or]

/-! ## Ranges with both bounds -/

/-- Each pass has both bounds or none. -/
structure IsWhole (r : SyncRange) : Prop where
  /-- the first pass -/
  base : r.baseFrom.isSome = r.baseTo.isSome
  /-- the current pass -/
  curr : r.currFrom.isSome = r.currTo.isSome

/-- Where every range with a start has an end that is not earlier, the starts are not all later than
the ends. -/
theorem not_allLater {start finish : SyncRange → Option Int}
    (hwhole : ∀ r ∈ ranges, (start r).isSome = (finish r).isSome)
    (hordered : ∀ r ∈ ranges, ordered (start r) (finish r) = true) :
    ¬AllLater (ranges.filterMap start) (ranges.filterMap finish) := by
  rintro ⟨hstarts, -, hlater⟩
  obtain ⟨a, ha⟩ := List.exists_mem_of_ne_nil _ hstarts
  obtain ⟨r, hr, hstart⟩ := List.mem_filterMap.mp ha
  have hboth := hwhole r hr
  have hle := hordered r hr
  rw [hstart, Option.isSome_some] at hboth
  obtain ⟨b, hfinish⟩ := Option.isSome_iff_exists.mp hboth.symm
  rw [hstart, hfinish, ordered, decide_eq_true_eq] at hle
  have hlt := hlater a ha b (List.mem_filterMap.mpr ⟨r, hr, hfinish⟩)
  omega

/-- Consistent ranges with both bounds have not crossed. -/
theorem not_hasCrossed_of_isWhole (hwhole : ∀ r ∈ ranges, r.IsWhole)
    (hconsistent : ∀ r ∈ ranges, r.isConsistent = true) : ¬HasCrossed ranges := by
  simp only [isConsistent, Bool.and_eq_true] at hconsistent
  rw [HasCrossed, not_or]
  exact ⟨not_allLater (fun r hr => (hwhole r hr).base) fun r hr => (hconsistent r hr).1,
    not_allLater (fun r hr => (hwhole r hr).curr) fun r hr => (hconsistent r hr).2⟩

end SyncRange

/-! ## Entries -/

namespace TrackedRange

variable {reports : List TrackedRange}

/-- What is gathered of reports is consistent just if those of no place have crossed. -/
theorem isConsistent_gathered_iff : (∀ e ∈ gathered reports, e.range.isConsistent = true) ↔
    ∀ p, ¬SyncRange.HasCrossed (rangesAt reports p) := by
  rw [gathered, List.forall_mem_map]
  simp only [SyncRange.isConsistent_hull_iff, List.mem_eraseDups]
  refine ⟨fun h p => ?_, fun h p _ => h p⟩
  by_cases hp : p ∈ reports.map place
  · exact h p hp
  · -- a place that was not reported has no range that could cross
    have hnone : rangesAt reports p = [] := by
      rw [rangesAt, List.map_eq_nil_iff, List.filter_eq_nil_iff]
      intro e he heq
      exact hp (of_decide_eq_true heq ▸ List.mem_map_of_mem he)
    rw [hnone]
    rintro (⟨hstarts, -⟩ | ⟨hstarts, -⟩) <;> exact hstarts rfl

theorem mem_of_mem_rangesAt {p : String × Option String} {r : SyncRange}
    (h : r ∈ rangesAt reports p) : ∃ e ∈ reports, e.range = r := by
  obtain ⟨e, he, rfl⟩ := List.mem_map.mp h
  exact ⟨e, List.mem_of_mem_filter he, rfl⟩

end TrackedRange

/-! ## Collections -/

namespace Collection

open TrackedRange

/-- All that is tracked is consistent after each of the reports. -/
def StaysConsistent (c : Collection) (reports : List TrackedRange) : Prop :=
  ∀ before, before <+: reports → ∀ e ∈ (c.withEntries before).tracked, e.range.isConsistent = true

/-- **Consistency.** A collection that tracks nothing takes reports of consistent ranges, of any
places and with any bounds missing. What it tracks stays consistent if and only if at no time the
ranges reported for one place have crossed; they never do where each range has both bounds of a pass
or none. -/
theorem staysConsistent_iff {c : Collection} (hnew : c.tracked = []) {reports : List TrackedRange}
    (hconsistent : ∀ e ∈ reports, e.range.isConsistent = true) :
    (c.StaysConsistent reports ↔
      ∀ before, before <+: reports → ∀ p, ¬SyncRange.HasCrossed (rangesAt before p)) ∧
    ((∀ e ∈ reports, e.range.IsWhole) → c.StaysConsistent reports) := by
  have hiff : c.StaysConsistent reports ↔
      ∀ before, before <+: reports → ∀ p, ¬SyncRange.HasCrossed (rangesAt before p) := by
    simp only [StaysConsistent, withEntries_eq hnew, isConsistent_gathered_iff]
  refine ⟨hiff, fun hwhole => hiff.mpr fun before hbefore p => ?_⟩
  refine SyncRange.not_hasCrossed_of_isWhole (fun r hr => ?_) (fun r hr => ?_)
  · obtain ⟨e, he, rfl⟩ := mem_of_mem_rangesAt hr
    exact hwhole e (hbefore.subset he)
  · obtain ⟨e, he, rfl⟩ := mem_of_mem_rangesAt hr
    exact hconsistent e (hbefore.subset he)

/-- A start and an end of one pass, each in a report of its own. -/
def halfReports : List TrackedRange :=
  [⟨"tBTCUSD", none, ⟨some 100, none, none, none⟩⟩, ⟨"tBTCUSD", none, ⟨none, some 50, none, none⟩⟩]

/-- The end comes before the start, and so the range that is tracked does, too. -/
theorem staysConsistent_iff_halves :
    Progress.candles.tracked = [] ∧ (∀ e ∈ halfReports, e.range.isConsistent = true) ∧
      SyncRange.HasCrossed (rangesAt halfReports ("tBTCUSD", none)) ∧
      ¬Progress.candles.StaysConsistent halfReports := by
  have hnew : Progress.candles.tracked = [] := rfl
  have hconsistent : ∀ e ∈ halfReports, e.range.isConsistent = true := by decide
  have hcrossed : SyncRange.HasCrossed (rangesAt halfReports ("tBTCUSD", none)) :=
    .inl ⟨by decide, by decide, by decide⟩
  refine ⟨hnew, hconsistent, hcrossed, fun hstays => ?_⟩
  exact (staysConsistent_iff hnew hconsistent).1.mp hstays _ (List.prefix_refl _) _ hcrossed

end Collection

end AccountHistory
