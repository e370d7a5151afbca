import AccountHistory.Proofs.MigrationRun

/-!
# The slot of the version

Versions are numbers of 32 bits, and so is the slot where the version of a database stands; but half
of the numbers in the slot are negative, so the upper half of the versions do not fit. They are
written as zero.

* `storedVersion_stamp_iff`: a version is read back if and only if it fits the slot;
* `migrateBy_slot`: so a run that succeeds leaves the version that it reports if and only if that of
  the blueprint fits. If it does, the next run takes up no migration, and if it does not, the next
  run takes up all of them again.
-/

namespace AccountHistory

open Store

namespace Blueprint

variable {effect : Effect} {b : Blueprint} {directory : Option MigrationDirectory}
  {s s' : Session} {summary : MigrationSummary}

/-- A version is read back as it was written exactly where it fits the slot. -/
theorem storedVersion_stamp_iff (v : Nat) (s : Session) :
    (stamp v s).database.storedVersion = v ↔ v ≤ greatestVersion := by
  rw [storedVersion_stamp_eq]
  split <;> omega

/-- What a directory asks for, as far as it can be read. -/
def wantedIn (b : Blueprint) (stored : Nat) (directory : Option MigrationDirectory) :
    List Migration :=
  Migration.wanted stored b.version
    (((directory.bind MigrationDirectory.entries).getD []).map Prod.fst)

/-- What a run reports that succeeds: the version it found, that of the blueprint, and the migrations
it took up, in some order. -/
theorem report_of_ok (h : b.migrateBy effect directory s = (s', .ok summary)) :
    summary.fromVersion = s.database.storedVersion ∧ summary.toVersion = b.version ∧
      summary.applied.Perm ((b.candidates directory s.database).map Migration.name) := by
  have houtcome := migrateBy_outcome effect b directory s
  rw [h] at houtcome
  cases houtcome with
  | settled heq hdue =>
    rw [candidates_eq_nil hdue]
    exact ⟨heq.symm, rfl, .refl _⟩
  | completed hle hdue hplans hcommits hcomplete =>
    exact ⟨rfl, rfl, hplans.order.perm.map Migration.name⟩

/-- The version that stands in the slot behind such a run. -/
theorem storedVersion_of_ok (hslot : s.database.storedVersion ≤ greatestVersion)
    (h : b.migrateBy effect directory s = (s', .ok summary)) :
    s'.database.storedVersion = if b.version ≤ greatestVersion then b.version else 0 := by
  have houtcome := migrateBy_outcome effect b directory s
  rw [h] at houtcome
  cases houtcome with
  | settled heq hdue =>
    rw [heq] at hslot
    rw [if_pos hslot, heq]
  | completed hle hdue hplans hcommits hcomplete =>
    obtain ⟨s₁, rfl⟩ := exists_stamp_of_complete hcomplete
    exact storedVersion_stamp_eq b.version s₁

/-- A database behind a run that succeeds asks for no migration if the version fits; if it does not,
it asks for all of them, unless it has no tables. -/
theorem candidates_of_ok (hslot : s.database.storedVersion ≤ greatestVersion)
    (h : b.migrateBy effect directory s = (s', .ok summary))
    (next : Option MigrationDirectory) :
    b.candidates next s'.database =
      if b.version ≤ greatestVersion ∨ s'.database.sortedTables = [] then []
      else b.wantedIn 0 next := by
  have hstored := storedVersion_of_ok hslot h
  by_cases hfits : b.version ≤ greatestVersion
  · rw [if_pos (.inl hfits)]
    rw [if_pos hfits] at hstored
    refine List.eq_nil_iff_forall_not_mem.mpr fun m hm => ?_
    have := version_of_mem_candidates hm
    omega
  · rw [if_neg hfits] at hstored
    simp only [candidates, IsFresh, hstored, hfits, true_and, false_or, wantedIn]

/-- A run that takes up no migration goes the same way whatever effect texts have. -/
theorem migrateBy_congr (h : b.candidates directory s.database = []) (effect effect' : Effect) :
    b.migrateBy effect directory s = b.migrateBy effect' directory s := by
  by_cases hfresh : IsFresh s.database
  · rw [migrateBy_of_isFresh _ b _ hfresh, migrateBy_of_isFresh _ b _ hfresh]
  · rw [migrateBy, migrateWith, migrateBy, migrateWith]
    obtain ⟨ms, hpending, horder⟩ | ⟨d, -, -, -, herror⟩ := b.pending_spec directory hfresh
    · rw [h] at horder
      obtain rfl := horder.perm.eq_nil
      simp only [hpending, groups, List.splitBy_nil, runGroups]
    · simp only [herror]

/-- **The slot of the version.** A version is read back as it was written if and only if it fits the
slot. A run that succeeds on a database reports the version of the blueprint, and that version
stands in the slot afterwards if and only if it fits; else zero does. If it fits, texts of migrations
make no difference to the next run. What that applies, if it succeeds, are no migrations at all if
the version fits, and all up to that version, in some order, if it does not and there are tables. -/
theorem migrateBy_slot (hslot : s.database.storedVersion ≤ greatestVersion)
    (h : b.migrateBy effect directory s = (s', .ok summary)) :
    (∀ v t, (stamp v t).database.storedVersion = v ↔ v ≤ greatestVersion) ∧
    summary.toVersion = b.version ∧
    (s'.database.storedVersion = summary.toVersion ↔ b.version ≤ greatestVersion) ∧
    (b.version ≤ greatestVersion → ∀ (effect₁ effect₂ : Effect) next,
      b.migrateBy effect₁ next s' = b.migrateBy effect₂ next s') ∧
    ∀ (effect' : Effect) next s'' summary', b.migrateBy effect' next s' = (s'', .ok summary') →
      summary'.fromVersion = (if b.version ≤ greatestVersion then b.version else 0) ∧
      summary'.applied.Perm
        ((if b.version ≤ greatestVersion ∨ s'.database.sortedTables = [] then []
          else b.wantedIn 0 next).map Migration.name) := by
  have hto := (report_of_ok h).2.1
  have hstored := storedVersion_of_ok hslot h
  refine ⟨storedVersion_stamp_iff, hto, ?_, ?_, ?_⟩
  · rw [hto, hstored]
    split <;> omega
  · intro hfits effect₁ effect₂ next
    refine migrateBy_congr ?_ effect₁ effect₂
    rw [candidates_of_ok hslot h, if_pos (.inl hfits)]
  · intro effect' next s'' summary' hnext
    obtain ⟨hfrom, -, happlied⟩ := report_of_ok hnext
    rw [hstored] at hfrom
    rw [candidates_of_ok hslot h] at happlied
    exact ⟨hfrom, happlied⟩

/-- A table, at the least version that does not fit the slot. -/
def upperHalf : Blueprint := ⟨[("t", ⟨[⟨"mts", .bigint⟩], [], [], [], []⟩)], 2147483648⟩

/-- A migration to that version, which does nothing. -/
def toUpperHalf : Option MigrationDirectory :=
  some ⟨"migrations", some [(⟨"migration.v2147483648.sql", none, true⟩, some "SELECT 1;")]⟩

/-- The table, at version zero. -/
def unversioned : Database :=
  ⟨[⟨"t", [⟨"mts", .integer, false, none, .const .null⟩], [], []⟩], [], [], none, 0⟩

/-- A run on an empty database reports the version and leaves zero. The next run applies the
migration to the version that was reported before, and so does each one after it. -/
theorem migrateBy_slot_upperHalf :
    upperHalf.migrate toUpperHalf (.start .empty 0)
      = (.start unversioned 0, .ok ⟨0, 2147483648, true, []⟩) ∧
    unversioned.storedVersion ≠ 2147483648 ∧
    upperHalf.migrate toUpperHalf (.start unversioned 0)
      = (.start unversioned 0, .ok ⟨0, 2147483648, false, ["migration.v2147483648.sql"]⟩) ∧
    ["migration.v2147483648.sql"].Perm ((upperHalf.wantedIn 0 toUpperHalf).map Migration.name) := by
  have hfirst : upperHalf.migrate toUpperHalf (.start .empty 0)
      = (.start unversioned 0, .ok ⟨0, 2147483648, true, []⟩) := by
    decide +kernel
  have hnext : upperHalf.migrate toUpperHalf (.start unversioned 0)
      = (.start unversioned 0, .ok ⟨0, 2147483648, false, ["migration.v2147483648.sql"]⟩) := by
    rw [migrate, migrateBy, migrateWith, toUpperHalf, pending_of_sorted rfl (by decide +kernel)]
    decide +kernel
  have hfits : ¬upperHalf.version ≤ greatestVersion := by decide
  have htables : (Session.start unversioned 0).database.sortedTables ≠ [] := by decide +kernel
  obtain ⟨-, -, hstands, -, hagain⟩ := migrateBy_slot (by decide) hfirst
  refine ⟨hfirst, fun hversion => hfits (hstands.mp hversion), hnext, ?_⟩
  obtain ⟨-, happlied⟩ := hagain _ toUpperHalf (.start unversioned 0) _ hnext
  rwa [if_neg (not_or.mpr ⟨hfits, htables⟩)] at happlied

end Blueprint

end AccountHistory
