import AccountHistory.Proofs.MigrationRun

/-!
# Runs that are repeated

A run that fails may be repeated on the database it leaves behind. The version that stands there is
all that the next run goes by: where it is that of the blueprint, the tables count as made.

* `Completed`: a run makes all that is missing of the tables, and says so;
* `Lost`: a run fails, but the migrations it commits before that lead to the version of the
  blueprint;
* `completed_iff_forall_not_lost`: a success says that the tables were made unless a run before it
  was lost. After that one, every run succeeds and does nothing.
-/

namespace AccountHistory

open Store

namespace Blueprint

/-- A call of a run: the effect of texts, the directory and the session it finds. -/
structure Call where
  /-- the effect that texts have -/
  effect : Effect
  /-- the directory of migrations -/
  directory : Option MigrationDirectory
  /-- the session in which it runs -/
  session : Session

variable {b : Blueprint} {c : Call}

/-- The session that a call leaves behind, and its answer. -/
def result (b : Blueprint) (c : Call) : Session × Except MigrationError MigrationSummary :=
  b.migrateBy c.effect c.directory c.session

/-- The calls are made one after the other: each finds the database that the one before left behind,
the first one that given. -/
def Follow (b : Blueprint) : Database → List Call → Prop
  | _, [] => True
  | db, c :: rest => c.session.database = db ∧ Follow b (b.result c).1.database rest

/-- A call makes the tables: they are due, what is missing of them is made after some migrations
are committed, and the call succeeds. -/
structure Completed (b : Blueprint) (c : Call) : Prop where
  /-- the tables are due -/
  due : b.IsDue c.session.database
  /-- all statements for the tables, indexes and triggers succeed, as the last step of the call -/
  made : ∃ gs s₁, Commits c.effect c.directory gs c.session s₁ ∧
    b.complete s₁ = .ok (b.result c).1
  /-- the call succeeds -/
  succeeded : (b.result c).2.isOk

/-- A call loses the tables: it fails, but raises the version to that of the blueprint. -/
structure Lost (b : Blueprint) (c : Call) : Prop where
  /-- the version is below that of the blueprint before -/
  behind : c.session.database.storedVersion < b.version
  /-- it is that of the blueprint after -/
  raised : (b.result c).1.database.storedVersion = b.version
  /-- the call fails -/
  failed : (b.result c).2.isOk = false

/-! ## Single calls -/

theorem Completed.not_lost (h : b.Completed c) : ¬b.Lost c := by
  intro hlost
  have hok := h.succeeded
  rw [hlost.failed] at hok
  cases hok

theorem result_outcome (b : Blueprint) (c : Call) :
    Outcome c.effect b c.directory c.session (b.result c) :=
  migrateBy_outcome c.effect b c.directory c.session

/-- Where the version is that of the blueprint, a call does nothing, whatever it answers. -/
theorem session_of_version_eq (hb : 0 < b.version)
    (h : c.session.database.storedVersion = b.version) : (b.result c).1 = c.session := by
  have hdue : ¬b.IsDue c.session.database := by
    rintro (⟨hzero, -⟩ | hlt) <;> omega
  have houtcome := b.result_outcome c
  generalize b.result c = r at houtcome ⊢
  cases houtcome with
  | ahead => rfl
  | settled => rfl
  | completed _ hdue' => exact absurd hdue' hdue
  | stopped _ hplans hcommits =>
    have hnone := hplans.eq_nil hdue
    rw [List.append_eq_nil_iff] at hnone
    obtain ⟨rfl, -⟩ := hnone
    cases hcommits
    rfl

/-- A call on a database that is behind makes the tables, loses them, or fails and leaves the
database behind. -/
theorem completed_or_lost_or_behind (h : c.session.database.storedVersion < b.version) :
    b.Completed c ∨ b.Lost c ∨
      (b.result c).2.isOk = false ∧ (b.result c).1.database.storedVersion < b.version := by
  have houtcome := b.result_outcome c
  generalize hresult : b.result c = r at houtcome
  cases houtcome with
  | ahead => omega
  | settled => omega
  | completed _ hdue _ hcommits hcomplete =>
    exact .inl ⟨hdue, ⟨_, _, hcommits, by rw [hresult, hcomplete]⟩, by rw [hresult]; rfl⟩
  | @stopped _ _ _ s' _ _ hplans hcommits =>
    right
    have hle : s'.database.storedVersion ≤ b.version := by
      rcases hcommits.eq_or_storedVersion_le fun m hm => hplans.version_le m (by simp [hm])
        with rfl | hle <;> omega
    by_cases heq : s'.database.storedVersion = b.version
    · exact .inl ⟨h, by rw [hresult]; exact heq, by rw [hresult]; rfl⟩
    · exact .inr ⟨by rfl, by dsimp only; omega⟩

/-- Tables can only be lost if the version of the blueprint fits its slot. -/
theorem Lost.version_le (h : b.Lost c) : b.version ≤ greatestVersion := by
  have hbehind := h.behind
  have hraised := h.raised
  have hfailed := h.failed
  have houtcome := b.result_outcome c
  generalize b.result c = r at houtcome hraised hfailed
  cases houtcome with
  | ahead => omega
  | settled => cases hfailed
  | completed => cases hfailed
  | stopped _ hplans hcommits =>
    rcases hcommits.eq_or_storedVersion_le fun m hm => hplans.version_le m (by simp [hm])
      with rfl | hle
    · dsimp only at hraised
      omega
    · dsimp only at hraised
      omega

/-- After the tables are made, the version is that of the blueprint if it fits its slot. -/
theorem Completed.version_eq (h : b.Completed c) (hb : b.version ≤ greatestVersion) :
    (b.result c).1.database.storedVersion = b.version := by
  obtain ⟨_, _, _, hcomplete⟩ := h.made
  obtain ⟨s₂, heq⟩ := exists_stamp_of_complete hcomplete
  rw [heq, storedVersion_stamp hb]

/-! ## Sequences of calls -/

/-- Where the version is that of the blueprint, it stays so, and no call makes the tables or loses
them. -/
theorem Follow.of_version_eq (hb : 0 < b.version) {db : Database} {calls : List Call}
    (h : b.Follow db calls) (hdb : db.storedVersion = b.version) :
    ∀ c ∈ calls, ¬b.Completed c ∧ ¬b.Lost c := by
  induction calls generalizing db with
  | nil => simp
  | cons c rest ih =>
    obtain ⟨rfl, hrest⟩ := h
    rw [session_of_version_eq hb hdb] at hrest
    intro c' hc'
    rcases List.mem_cons.mp hc' with rfl | hc'
    · refine ⟨fun hcompleted => ?_, fun hlost => ?_⟩
      · rcases hcompleted.due with ⟨hzero, -⟩ | hlt <;> omega
      · have := hlost.behind
        omega
    · exact ih hrest hdb c' hc'

/-- Calls are repeated on a database that is behind, and the last one succeeds. Then one of them
made the tables, unless one before lost them. -/
theorem completed_iff_forall_not_lost {db : Database} {before : List Call} {last : Call}
    (hbehind : db.storedVersion < b.version) (hfollow : b.Follow db (before ++ [last]))
    (hlast : (b.result last).2.isOk) :
    (∃ c ∈ before ++ [last], b.Completed c) ↔ ∀ c ∈ before, ¬b.Lost c := by
  have hb : 0 < b.version := by omega
  induction before generalizing db with
  | nil =>
    obtain ⟨rfl, -⟩ := hfollow
    rcases completed_or_lost_or_behind hbehind with hcompleted | hlost | ⟨hfailed, -⟩
    · simp [hcompleted]
    · rw [hlost.failed] at hlast
      cases hlast
    · rw [hfailed] at hlast
      cases hlast
  | cons c rest ih =>
    obtain ⟨rfl, hrest⟩ := hfollow
    rcases completed_or_lost_or_behind hbehind with hcompleted | hlost | ⟨hfailed, hbehind'⟩
    · refine ⟨fun _ c' hc' hlost => ?_, fun _ => ⟨c, .head _, hcompleted⟩⟩
      rcases List.mem_cons.mp hc' with rfl | hc'
      · exact hcompleted.not_lost hlost
      · have heq := hcompleted.version_eq hlost.version_le
        exact (hrest.of_version_eq hb heq c' (List.mem_append_left _ hc')).2 hlost
    · refine ⟨fun ⟨c', hc', hcompleted⟩ => ?_, fun h => absurd hlost (h c (.head _))⟩
      rcases List.mem_cons.mp hc' with rfl | hc'
      · exact absurd hlost hcompleted.not_lost
      · exact absurd hcompleted (hrest.of_version_eq hb hlost.raised c' hc').1
    · have hcompleted : ¬b.Completed c := by
        intro h
        have hsucceeded := h.succeeded
        rw [hfailed] at hsucceeded
        cases hsucceeded
      have hlost : ¬b.Lost c := by
        intro h
        have := h.raised
        omega
      simpa [hcompleted, hlost] using ih hbehind' hrest

/-- A table whose second column the database lacks, with an index on it. -/
def amountIndexed : Blueprint :=
  ⟨[("t", ⟨[⟨"mts", .bigint⟩, ⟨"amount", .decimal⟩], [], [], [⟨["amount"], none⟩], []⟩)], 2⟩

/-- A call with one migration, which does nothing and leads to the version two. -/
def idleCall (version : Int) : Call where
  effect text s := s.runInside text
  directory := some ⟨"migrations", some [(⟨"migration.v2.sql", none, true⟩, some "SELECT 1;")]⟩
  session := .start ⟨[⟨"t", [⟨"mts", .integer, false, none, .const .null⟩], [], []⟩], [], [], none,
    version⟩ 0

theorem result_idleCall_one : amountIndexed.result (idleCall 1)
    = ((idleCall 2).session, .error (.store (.refused (.noSuchColumn "amount")))) := by
  rw [result, migrateBy, migrateWith, idleCall, pending_of_sorted rfl (by decide +kernel)]
  decide +kernel

theorem result_idleCall_two : amountIndexed.result (idleCall 2)
    = ((idleCall 2).session, .ok ⟨2, 2, false, []⟩) := by
  rw [result, migrateBy, migrateWith, idleCall, pending_of_sorted rfl (by decide +kernel)]
  decide +kernel

/-- The index cannot be made, so the first call fails; it has raised the version by then, so the
second one succeeds without making it. -/
theorem completed_iff_forall_not_lost_idleCall :
    (idleCall 1).session.database.storedVersion < amountIndexed.version ∧
      amountIndexed.Follow (idleCall 1).session.database ([idleCall 1] ++ [idleCall 2]) ∧
      (amountIndexed.result (idleCall 2)).2.isOk ∧ amountIndexed.Lost (idleCall 1) ∧
      ¬∃ c ∈ [idleCall 1] ++ [idleCall 2], amountIndexed.Completed c := by
  have hbehind : (idleCall 1).session.database.storedVersion < amountIndexed.version := by decide
  have hfollow : amountIndexed.Follow (idleCall 1).session.database
      ([idleCall 1] ++ [idleCall 2]) :=
    ⟨rfl, by rw [result_idleCall_one], trivial⟩
  have hlast : (amountIndexed.result (idleCall 2)).2.isOk := by rw [result_idleCall_two]; rfl
  have hlost : amountIndexed.Lost (idleCall 1) :=
    ⟨hbehind, by rw [result_idleCall_one]; rfl, by rw [result_idleCall_one]; rfl⟩
  refine ⟨hbehind, hfollow, hlast, hlost, ?_⟩
  rw [completed_iff_forall_not_lost hbehind hfollow hlast]
  exact fun h => h _ (.head _) hlost

end Blueprint

end AccountHistory
