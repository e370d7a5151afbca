import AccountHistory.Proofs.MigrationRun

/-!
# Runs of migrations step by step

Others may use the database between the steps of a run: it reads the version, then the tables if the
version is zero, and each of its transactions is a step of its own. `Stage.turn` is one step, from
what the run knows and the database as it is by then; `migrateBy_of_steps` says that the steps of a
run that is left alone are those of `migrateBy`.
-/

namespace AccountHistory

open Store

namespace Blueprint

/-! ## Steps -/

/-- How far a run has come, and what it knows. -/
inductive Stage where
  /-- nothing is known yet -/
  | fresh
  /-- the version is zero, and it is still to be seen whether there are tables -/
  | unversioned
  /-- the database was found empty -/
  | empty
  /-- a version was read, migrations of these names have been applied, and these groups are left -/
  | groups (stored : Nat) (applied : List String) (rest : List (List Migration))
  /-- the run is over -/
  | ended (result : Except MigrationError MigrationSummary)

/-- What a step does to the version that all runs share. -/
inductive Deed where
  /-- reads it -/
  | reads (stored : Nat)
  /-- commits the migrations of a version, which it writes -/
  | commits (version : Nat)
  /-- makes what is missing of the tables, and writes the version of the blueprint -/
  | completes
  deriving DecidableEq, Repr

/-- What a step leads to. -/
structure Turn where
  /-- how far the run has come now -/
  stage : Stage
  /-- the session behind the step -/
  session : Session
  /-- what was done to the version, if something was -/
  deed : Option Deed

/-- The stage after a version has been read: the groups to be committed. -/
def planned (b : Blueprint) (directory : Option MigrationDirectory) (stored : Nat) : Stage :=
  match b.pending stored directory with
  | .error e => .ended (.error e)
  | .ok migrations => .groups stored [] (Blueprint.groups migrations)

/-- The last transaction of a run, which makes what is missing. -/
def finish (b : Blueprint) (s : Session) (summary : MigrationSummary) : Turn :=
  match b.complete s with
  | .error e => ⟨.ended (.error e), s, none⟩
  | .ok s' => ⟨.ended (.ok summary), s', some .completes⟩

/-- One step of a run. -/
def Stage.turn (effect : Effect) (b : Blueprint) (directory : Option MigrationDirectory)
    (s : Session) : Stage → Turn
  | .fresh =>
    let stored := s.database.storedVersion
    let stage : Stage :=
      if b.version < stored then .ended (.error (.downgrade stored b.version))
      else if stored = 0 then .unversioned
      else b.planned directory stored
    ⟨stage, s, some (.reads stored)⟩
  | .unversioned => ⟨if s.database.sortedTables = [] then .empty else b.planned directory 0, s, none⟩
  | .empty => b.finish s ⟨0, b.version, true, []⟩
  | .groups stored applied [] =>
    if stored < b.version then b.finish s ⟨stored, b.version, false, applied⟩
    else ⟨.ended (.ok ⟨stored, stored, false, applied⟩), s, none⟩
  | .groups stored applied (group :: rest) =>
    match runGroup effect directory group s with
    | .error e => ⟨.ended (.error e), s, none⟩
    | .ok s' =>
      ⟨.groups stored (applied ++ group.map Migration.name) rest, s',
        group.head?.map fun m => .commits m.version⟩
  | .ended result => ⟨.ended result, s, none⟩

/-! ## Runs that are left alone -/

/-- The steps of a run lead from a stage and a session to others, where nobody else comes between
them. -/
inductive Leads (effect : Effect) (b : Blueprint) (directory : Option MigrationDirectory) :
    Stage → Session → Stage → Session → Prop
  | refl (stage : Stage) (s : Session) : Leads effect b directory stage s stage s
  | step {stage stage' : Stage} {s s' : Session} :
      Leads effect b directory (stage.turn effect b directory s).stage
        (stage.turn effect b directory s).session stage' s' →
      Leads effect b directory stage s stage' s'

section Alone

variable {effect : Effect} {b : Blueprint} {directory : Option MigrationDirectory}
  {stage stage' stage'' : Stage} {s s' s'' : Session}

theorem Leads.trans (h : Leads effect b directory stage s stage' s')
    (h' : Leads effect b directory stage' s' stage'' s'') :
    Leads effect b directory stage s stage'' s'' := by
  induction h with
  | refl => exact h'
  | step _ ih => exact .step (ih h')

/-- The last transaction is the last step. -/
theorem leads_of_finish {summary : MigrationSummary}
    (h : stage.turn effect b directory s = b.finish s summary) :
    Leads effect b directory stage s
      (.ended (match b.complete s with
        | .error e => .error e
        | .ok _ => .ok summary))
      (match b.complete s with
        | .error _ => s
        | .ok s' => s') := by
  refine .step ?_
  rw [h, finish]
  cases b.complete s with
  | error e => exact .refl _ _
  | ok s' => exact .refl _ _

/-- Groups are committed one after the other, up to the first that fails. -/
theorem leads_of_runGroups (effect : Effect) (b : Blueprint)
    (directory : Option MigrationDirectory) (stored : Nat) (applied : List String)
    (gs : List (List Migration)) (s : Session) :
    match runGroups effect directory applied gs s with
    | (s', _, some e) =>
      Leads effect b directory (.groups stored applied gs) s (.ended (.error e)) s'
    | (s', applied', none) =>
      Leads effect b directory (.groups stored applied gs) s (.groups stored applied' []) s' := by
  induction gs generalizing applied s with
  | nil => exact .refl _ _
  | cons g rest ih =>
    rw [runGroups]
    cases hrun : runGroup effect directory g s with
    | error e =>
      refine .step ?_
      rw [Stage.turn, hrun]
      exact .refl _ _
    | ok s₁ =>
      have hstep (stage' : Stage) (s' : Session)
          (h : Leads effect b directory (.groups stored (applied ++ g.map Migration.name) rest) s₁
            stage' s') : Leads effect b directory (.groups stored applied (g :: rest)) s stage' s' := by
        refine .step ?_
        rw [Stage.turn, hrun]
        exact h
      have hrest := ih (applied ++ g.map Migration.name) s₁
      dsimp only
      generalize runGroups effect directory (applied ++ g.map Migration.name) rest s₁ = outcome
        at hrest ⊢
      obtain ⟨s', applied', failure⟩ := outcome
      cases failure with
      | some e => exact hstep _ _ hrest
      | none => exact hstep _ _ hrest

/-- The steps behind the reading of the version and of the tables. -/
theorem leads_of_planned (hle : s.database.storedVersion ≤ b.version)
    (hfresh : ¬IsFresh s.database) :
    Leads effect b directory (b.planned directory s.database.storedVersion) s
      (.ended (b.migrateBy effect directory s).2) (b.migrateBy effect directory s).1 := by
  rw [migrateBy, migrateWith, if_neg (by omega), if_neg (show ¬(_ ∧ _) from hfresh), planned]
  simp only [completeBy_runInside]
  cases b.pending s.database.storedVersion directory with
  | error e => exact .refl _ _
  | ok migrations =>
    have hgroups := leads_of_runGroups effect b directory s.database.storedVersion []
      (Blueprint.groups migrations) s
    dsimp only
    generalize runGroups effect directory [] (Blueprint.groups migrations) s = outcome
      at hgroups ⊢
    obtain ⟨s', applied, failure⟩ := outcome
    cases failure with
    | some e => exact hgroups
    | none =>
      refine hgroups.trans ?_
      dsimp only
      split
      case isTrue hlt =>
        have hlast : Leads effect b directory (.groups s.database.storedVersion applied []) s' _ _ :=
          leads_of_finish (by rw [Stage.turn, if_pos hlt])
        cases hcomplete : b.complete s' with
        | error e => simpa only [hcomplete] using hlast
        | ok s'' => simpa only [hcomplete] using hlast
      case isFalse hge =>
        refine .step ?_
        rw [Stage.turn, if_neg hge]
        exact .refl _ _

/-- **A run that is left alone.** Its steps end with the session and the result of `migrateBy`. -/
theorem migrateBy_of_steps (effect : Effect) (b : Blueprint)
    (directory : Option MigrationDirectory) (s : Session) :
    Leads effect b directory .fresh s (.ended (b.migrateBy effect directory s).2)
      (b.migrateBy effect directory s).1 := by
  refine .step ?_
  simp only [Stage.turn]
  split
  case isTrue hahead =>
    rw [migrateBy, migrateWith, if_pos hahead]
    exact .refl _ _
  case isFalse hle =>
    replace hle : s.database.storedVersion ≤ b.version := by omega
    split
    case isFalse hversion => exact leads_of_planned hle fun hfresh => hversion hfresh.1
    case isTrue hzero =>
      refine .step ?_
      simp only [Stage.turn]
      split
      case isFalse htables =>
        rw [← hzero]
        exact leads_of_planned hle fun hfresh => htables hfresh.2
      case isTrue htables =>
        have hlast : Leads effect b directory .empty s _ _ := leads_of_finish rfl
        rw [migrateBy_of_isFresh _ b _ ⟨hzero, htables⟩]
        cases hcomplete : b.complete s with
        | error e => simpa only [hcomplete] using hlast
        | ok s' => simpa only [hcomplete] using hlast

end Alone

end Blueprint

end AccountHistory
