import AccountHistory.Proofs.MigrationOrder
import AccountHistory.Proofs.Outcomes

/-!
# What a run of migrations does

A run takes up the migrations that a directory asks for, commits them version by version, and ends
with what is missing of the tables. Here its outcome is told for any effect that texts may have:

* `Executes` is the work of one group: every migration once, in order, each with the effect of its
  text;
* `Commits` is the work of whole groups: after each one the version is written;
* `Stops` are the reasons for which a run ends early;
* `migrateBy_commits` puts them together: all groups are committed if a run goes well, and some
  first ones if it fails.
-/

namespace AccountHistory

open Store

namespace Blueprint

variable {effect : Effect} {b : Blueprint} {directory : Option MigrationDirectory}

/-! ## What is taken up -/

/-- A database is empty: it has no tables of its own, and its version is zero. -/
def IsFresh (db : Database) : Prop := db.storedVersion = 0 ∧ db.sortedTables = []

instance (db : Database) : Decidable (IsFresh db) := inferInstanceAs (Decidable (_ ∧ _))

/-- The migrations that a run takes up: none on an empty database, those asked for on any other.
There are none without a directory, and none in one that cannot be read. -/
def candidates (b : Blueprint) (directory : Option MigrationDirectory) (db : Database) :
    List Migration :=
  if IsFresh db then []
  else
    Migration.wanted db.storedVersion b.version
      (((directory.bind MigrationDirectory.entries).getD []).map Prod.fst)

theorem version_of_mem_candidates {db : Database} {m : Migration}
    (h : m ∈ b.candidates directory db) : db.storedVersion < m.version ∧ m.version ≤ b.version := by
  unfold candidates at h
  split at h
  · cases h
  · simp only [Migration.wanted, List.mem_filter, decide_eq_true_eq] at h
    exact h.2.2

/-- What is pending for a database that is not empty, is what a run takes up, in order. It is known
unless the directory cannot be read. -/
theorem pending_spec (b : Blueprint) (directory : Option MigrationDirectory) {db : Database}
    (hfresh : ¬IsFresh db) :
    (∃ ms, b.pending db.storedVersion directory = .ok ms ∧
      Migration.InOrder (b.candidates directory db) ms) ∨
    ∃ d, directory = some d ∧ d.entries = none ∧ b.candidates directory db = [] ∧
      b.pending db.storedVersion directory = .error (.unreadableDirectory d.path) := by
  simp only [candidates, if_neg hfresh]
  cases directory with
  | none => exact .inl ⟨[], rfl, Migration.InOrder.nil⟩
  | some d =>
    cases hd : d.entries with
    | none => exact .inr ⟨d, rfl, hd, by simp [hd, Migration.wanted], by simp [pending, hd]⟩
    | some entries =>
      left
      simp only [Option.bind_some, hd, Option.getD_some]
      exact pending_inOrder hd

/-! ## Runs of groups -/

/-- Migrations run one after the other, each once, with the effect of its text. -/
inductive Executes (effect : Effect) (directory : Option MigrationDirectory) :
    List Migration → Session → Session → Prop
  | nil (s : Session) : Executes effect directory [] s s
  | cons {m : Migration} {ms : List Migration} {s s' s'' : Session} {text : String} :
      textOf directory m = .ok text → effect text s = .ok s' →
      Executes effect directory ms s' s'' → Executes effect directory (m :: ms) s s''

/-- Groups run one after the other, each as a whole, and its version is written after it. -/
inductive Commits (effect : Effect) (directory : Option MigrationDirectory) :
    List (List Migration) → Session → Session → Prop
  | nil (s : Session) : Commits effect directory [] s s
  | cons {m : Migration} {ms : List Migration} {gs : List (List Migration)} {s s' s'' : Session} :
      Executes effect directory (m :: ms) s s' →
      Commits effect directory gs (stamp m.version s') s'' →
      Commits effect directory ((m :: ms) :: gs) s s''

/-- A group fails with an error: those of its migrations before some member run, but the text of
that one cannot be read or fails. -/
inductive Fails (effect : Effect) (directory : Option MigrationDirectory) (group : List Migration)
    (s : Session) : MigrationError → Prop
  | unreadable {before after : List Migration} {m : Migration} {s' : Session} :
      group = before ++ m :: after → Executes effect directory before s s' →
      directory.bind (·.text? m) = none →
      Fails effect directory group s (.unreadable m.name)
  | statement {before after : List Migration} {m : Migration} {s' : Session} {text : String}
      {fault : Fault} :
      group = before ++ m :: after → Executes effect directory before s s' →
      textOf directory m = .ok text → effect text s' = .error fault →
      Fails effect directory group s (.statement m.name fault)

theorem Executes.run {ms : List Migration} {s s' : Session}
    (h : Executes effect directory ms s s') : runEach effect directory ms s = .ok s' := by
  induction h with
  | nil => rfl
  | cons htext heffect _ ih =>
    simp only [runEach, runOne, htext, heffect]
    exact ih

theorem Fails.cons {m : Migration} {ms : List Migration} {s s' : Session} {text : String}
    {e : MigrationError} (htext : textOf directory m = .ok text) (heffect : effect text s = .ok s')
    (h : Fails effect directory ms s' e) : Fails effect directory (m :: ms) s e := by
  cases h with
  | unreadable hms hbefore hnone =>
    exact .unreadable (by rw [hms, List.cons_append]) (hbefore.cons htext heffect) hnone
  | statement hms hbefore htext' hfault =>
    exact .statement (by rw [hms, List.cons_append]) (hbefore.cons htext heffect) htext' hfault

/-- Running migrations one after the other either runs them all, or fails at one of them. -/
theorem runEach_spec (effect : Effect) (directory : Option MigrationDirectory)
    (ms : List Migration) (s : Session) :
    (∃ s', runEach effect directory ms s = .ok s' ∧ Executes effect directory ms s s') ∨
      ∃ e, runEach effect directory ms s = .error e ∧ Fails effect directory ms s e := by
  induction ms generalizing s with
  | nil => exact .inl ⟨s, rfl, .nil s⟩
  | cons m ms ih =>
    simp only [runEach, runOne]
    cases htext : textOf directory m with
    | error e =>
      -- a text is missing only where there is none to read
      have hnone : directory.bind (·.text? m) = none := by
        cases h : directory.bind (·.text? m) with
        | none => rfl
        | some text => simp [textOf, h] at htext
      have he : e = .unreadable m.name := by
        simp only [textOf, hnone, Except.error.injEq] at htext
        exact htext.symm
      subst he
      exact .inr ⟨_, rfl, .unreadable rfl (.nil s) hnone⟩
    | ok text =>
      cases heffect : effect text s with
      | error fault =>
        simp only [heffect, Except.mapError]
        exact .inr ⟨_, rfl, .statement rfl (.nil s) htext heffect⟩
      | ok s' =>
        simp only [heffect, Except.mapError]
        -- the first has run, and the others do as they do from there
        rcases ih s' with ⟨s'', hrun, hexec⟩ | ⟨e, hrun, hfail⟩
        · exact .inl ⟨s'', hrun, hexec.cons htext heffect⟩
        · exact .inr ⟨e, hrun, hfail.cons htext heffect⟩

/-- Running groups either commits them all, or commits some first ones and fails in the next. The
names of the migrations committed are added to those given. -/
theorem runGroups_spec (effect : Effect) (directory : Option MigrationDirectory)
    {gs : List (List Migration)} (hne : ∀ g ∈ gs, g ≠ []) (names : List String) (s : Session) :
    (∃ s', Commits effect directory gs s s' ∧
      runGroups effect directory names gs s = (s', names ++ gs.flatten.map Migration.name, none)) ∨
    ∃ done group rest s' e, gs = done ++ group :: rest ∧ Commits effect directory done s s' ∧
      Fails effect directory group s' e ∧
      runGroups effect directory names gs s
        = (s', names ++ done.flatten.map Migration.name, some e) := by
  induction gs generalizing names s with
  | nil => exact .inl ⟨s, .nil s, by simp [runGroups]⟩
  | cons g gs ih =>
    cases g with
    | nil => exact absurd rfl (hne [] (.head gs))
    | cons m ms =>
      simp only [runGroups, runGroup]
      rcases runEach_spec effect directory (m :: ms) s with
        ⟨s', hrun, hexec⟩ | ⟨e, hrun, hfail⟩
      · simp only [hrun, Except.map]
        -- the first group is committed with its version, and the others start from there
        rcases ih (fun g hg => hne g (.tail _ hg)) (names ++ (m :: ms).map Migration.name)
          (stamp m.version s') with
          ⟨s'', hcommits, heq⟩ | ⟨done, group, rest, s'', e, hgs, hcommits, hfail, heq⟩
        · refine .inl ⟨s'', .cons hexec hcommits, ?_⟩
          rw [heq, List.flatten_cons, List.map_append, List.append_assoc]
        · refine .inr ⟨(m :: ms) :: done, group, rest, s'', e, by rw [hgs, List.cons_append],
            .cons hexec hcommits, hfail, ?_⟩
          rw [heq, List.flatten_cons, List.map_append, List.append_assoc]
      · simp only [hrun, Except.map]
        exact .inr ⟨[], m :: ms, gs, s, e, rfl, .nil s, hfail, by simp⟩

/-! ## The version written -/

/-- The greatest number that fits the slot of the version. -/
def greatestVersion : Nat := 2147483647

/-- A version that does not fit is written as zero. -/
theorem storedVersion_stamp_eq (v : Nat) (s : Session) :
    (stamp v s).database.storedVersion = if v ≤ greatestVersion then v else 0 := by
  unfold greatestVersion
  simp only [stamp, Session.withDatabase, Database.setVersion, Database.storedVersion]
  by_cases hv : v ≤ 2147483647
  · rw [if_pos (by omega), if_pos hv, Int.toNat_natCast]
  · rw [if_neg (by omega), if_neg hv, Int.toNat_zero]

theorem storedVersion_stamp {v : Nat} (hv : v ≤ greatestVersion) (s : Session) :
    (stamp v s).database.storedVersion = v := by
  rw [storedVersion_stamp_eq, if_pos hv]

theorem storedVersion_stamp_le (v : Nat) (s : Session) :
    (stamp v s).database.storedVersion ≤ min v greatestVersion := by
  rw [storedVersion_stamp_eq]
  split <;> omega

/-- Groups leave a session alone if there are none, and otherwise do not write a greater version
than they lead to. -/
theorem Commits.eq_or_storedVersion_le {gs : List (List Migration)} {s s' : Session} {v : Nat}
    (h : Commits effect directory gs s s') (hv : ∀ m ∈ gs.flatten, m.version ≤ v) :
    s' = s ∨ s'.database.storedVersion ≤ min v greatestVersion := by
  induction h with
  | nil => exact .inl rfl
  | @cons m ms gs _ s₁ _ _ _ ih =>
    right
    have hm : m.version ≤ v := hv m (by simp)
    have hstamp := storedVersion_stamp_le m.version s₁
    rcases ih fun n hn => hv n (by simp [hn]) with rfl | hle <;> omega

@[simp] theorem completeBy_runInside (b : Blueprint) (s : Session) :
    b.completeBy Statement.runInside s = b.complete s := rfl

/-- Completing the tables ends with the version of the blueprint. -/
theorem exists_stamp_of_complete {s s' : Session} (h : b.complete s = .ok s') :
    ∃ s₁, s' = stamp b.version s₁ := by
  obtain ⟨⟨s₁, _⟩, -, rfl⟩ := exists_of_map h
  exact ⟨s₁, rfl⟩

/-! ## Whole runs -/

/-- On an empty database all tables are made at once. -/
theorem migrateWith_of_isFresh (run : Statement.Runner) (effect : Effect) (b : Blueprint)
    (directory : Option MigrationDirectory) {s : Session} (h : IsFresh s.database) :
    b.migrateWith run effect directory s = match b.completeBy run s with
      | .error e => (s, .error e)
      | .ok s' => (s', .ok ⟨0, b.version, true, []⟩) := by
  have hbehind : ¬b.version < s.database.storedVersion := by
    rw [h.1]
    omega
  obtain ⟨hversion, htables⟩ := h
  rw [migrateWith]
  simp only [if_neg hbehind]
  rw [if_pos ⟨hversion, htables⟩]
  cases b.completeBy run s with
  | error e => rfl
  | ok s' =>
    exact congrArg (fun stored => (s', Except.ok (MigrationSummary.mk stored b.version true [])))
      hversion

theorem migrateBy_of_isFresh (effect : Effect) (b : Blueprint)
    (directory : Option MigrationDirectory) {s : Session} (h : IsFresh s.database) :
    b.migrateBy effect directory s = match b.complete s with
      | .error e => (s, .error e)
      | .ok s' => (s', .ok ⟨0, b.version, true, []⟩) :=
  migrateWith_of_isFresh Statement.runInside effect b directory h

/-- The tables are due on a database: it is empty, or behind. -/
def IsDue (b : Blueprint) (db : Database) : Prop := IsFresh db ∨ db.storedVersion < b.version

instance (b : Blueprint) (db : Database) : Decidable (b.IsDue db) :=
  inferInstanceAs (Decidable (_ ∨ _))

/-- Nothing is taken up where the tables are not due. -/
theorem candidates_eq_nil {db : Database} (hdue : ¬b.IsDue db) :
    b.candidates directory db = [] := by
  refine List.eq_nil_iff_forall_not_mem.mpr fun m hm => hdue (.inr ?_)
  have := version_of_mem_candidates hm
  omega

/-- The migrations that a run takes up on a database, in order and in groups. -/
structure Plans (b : Blueprint) (directory : Option MigrationDirectory) (db : Database)
    (ms : List Migration) (gs : List (List Migration)) : Prop where
  /-- they are those taken up, by version and time -/
  order : Migration.InOrder (b.candidates directory db) ms
  /-- a group holds those of one version -/
  grouped : Migration.Grouped ms gs

theorem Plans.nil {db : Database} (h : b.candidates directory db = []) :
    b.Plans directory db [] [] :=
  ⟨h ▸ Migration.InOrder.nil, .nil⟩

/-- No group is taken up where the tables are not due. -/
theorem Plans.eq_nil {db : Database} {ms : List Migration} {gs : List (List Migration)}
    (h : b.Plans directory db ms gs) (hdue : ¬b.IsDue db) : gs = [] := by
  have hms : ms = [] := (candidates_eq_nil hdue ▸ h.order.perm).eq_nil
  refine List.eq_nil_iff_forall_not_mem.mpr fun g hg => h.grouped.nonempty g hg ?_
  exact List.flatten_eq_nil_iff.mp (h.grouped.flatten.trans hms) g hg

theorem Plans.version_le {db : Database} {ms : List Migration} {gs : List (List Migration)}
    (h : b.Plans directory db ms gs) : ∀ m ∈ gs.flatten, m.version ≤ b.version := by
  intro m hm
  rw [h.grouped.flatten, h.order.perm.mem_iff] at hm
  exact (version_of_mem_candidates hm).2

/-- A run on a database stops with an error while these groups are left: the directory cannot be
read, the next group fails, or what is missing of the tables cannot be made. -/
inductive Stops (effect : Effect) (b : Blueprint) (directory : Option MigrationDirectory)
    (db : Database) : List (List Migration) → Session → MigrationError → Prop
  | directory {d : MigrationDirectory} {s : Session} :
      ¬IsFresh db → directory = some d → d.entries = none →
      Stops effect b directory db [] s (.unreadableDirectory d.path)
  | group {g : List Migration} {rest : List (List Migration)} {s : Session} {e : MigrationError} :
      Fails effect directory g s e → Stops effect b directory db (g :: rest) s e
  | completion {s : Session} {e : MigrationError} :
      b.IsDue db → b.complete s = .error e → Stops effect b directory db [] s e

/-- The outcomes of a run on a session. -/
inductive Outcome (effect : Effect) (b : Blueprint) (directory : Option MigrationDirectory)
    (s : Session) : Session × Except MigrationError MigrationSummary → Prop
  | ahead :
      b.version < s.database.storedVersion →
      Outcome effect b directory s (s, .error (.downgrade s.database.storedVersion b.version))
  | settled :
      s.database.storedVersion = b.version → ¬b.IsDue s.database →
      Outcome effect b directory s (s, .ok ⟨b.version, b.version, false, []⟩)
  | completed {ms : List Migration} {gs : List (List Migration)} {s₁ s' : Session} :
      s.database.storedVersion ≤ b.version → b.IsDue s.database →
      b.Plans directory s.database ms gs → Commits effect directory gs s s₁ →
      b.complete s₁ = .ok s' →
      Outcome effect b directory s (s', .ok ⟨s.database.storedVersion, b.version,
        decide (IsFresh s.database), ms.map Migration.name⟩)
  | stopped {ms : List Migration} {gs rest : List (List Migration)} {s' : Session}
      {e : MigrationError} :
      s.database.storedVersion ≤ b.version → b.Plans directory s.database ms (gs ++ rest) →
      Commits effect directory gs s s' → Stops effect b directory s.database rest s' e →
      Outcome effect b directory s (s', .error e)

/-- Completing the tables is the last step of a run. -/
theorem outcome_complete {ms : List Migration} {gs : List (List Migration)} {s s₁ : Session}
    (hle : s.database.storedVersion ≤ b.version) (hdue : b.IsDue s.database)
    (hplans : b.Plans directory s.database ms gs) (hcommits : Commits effect directory gs s s₁) :
    Outcome effect b directory s
      (match b.complete s₁ with
        | .error e => (s₁, .error e)
        | .ok s' => (s', .ok ⟨s.database.storedVersion, b.version, decide (IsFresh s.database),
            ms.map Migration.name⟩)) := by
  cases hcomplete : b.complete s₁ with
  | error e =>
    exact .stopped hle (by rwa [List.append_nil]) hcommits (.completion hdue hcomplete)
  | ok s' => exact .completed hle hdue hplans hcommits hcomplete

/-- Every run has one of the outcomes. -/
theorem migrateBy_outcome (effect : Effect) (b : Blueprint) (directory : Option MigrationDirectory)
    (s : Session) : Outcome effect b directory s (b.migrateBy effect directory s) := by
  simp only [migrateBy, migrateWith, completeBy_runInside]
  split
  · next hahead => exact .ahead hahead
  next hle =>
  replace hle : s.database.storedVersion ≤ b.version := by omega
  split
  · next hfresh =>
    have hplans : b.Plans directory s.database [] [] := .nil (if_pos hfresh)
    have hcommits : Commits effect directory [] s s := .nil s
    have h := outcome_complete hle (.inl hfresh) hplans hcommits
    rwa [decide_eq_true (show IsFresh s.database from hfresh)] at h
  next hfresh =>
  replace hfresh : ¬IsFresh s.database := hfresh
  rcases b.pending_spec directory hfresh with ⟨ms, hpending, horder⟩ | ⟨d, hd, hnone, hcand, herror⟩
  · have hplans : b.Plans directory s.database ms (groups ms) := ⟨horder, horder.grouped⟩
    rw [hpending]
    -- either all groups are committed, or one fails behind some that are
    rcases runGroups_spec effect directory hplans.grouped.nonempty [] s with
      ⟨s₁, hcommits, hrun⟩ | ⟨done, g, rest, s₁, e, hgs, hcommits, hfails, hrun⟩
    · rw [hplans.grouped.flatten, List.nil_append] at hrun
      simp only [hrun]
      split
      · next hlt =>
        have h := outcome_complete hle (.inr hlt) hplans hcommits
        rwa [decide_eq_false hfresh] at h
      · next hnlt =>
        -- the database was at the version already, so there were no groups
        have heq : s.database.storedVersion = b.version := by omega
        have hdue : ¬b.IsDue s.database := by simp [IsDue, hfresh, hnlt]
        have hnone := hplans.eq_nil hdue
        rw [hnone] at hcommits hplans
        cases hcommits
        rw [heq, ← hplans.grouped.flatten]
        exact .settled heq hdue
    · simp only [hrun]
      exact .stopped hle (hgs ▸ hplans) hcommits (.group hfails)
  · rw [herror]
    exact .stopped hle (.nil hcand) (.nil s) (.directory hfresh hd hnone)

/-- What a run comes to, whatever effect the texts have. A database ahead is left as it is. On any
other, the migrations taken up are put in order and grouped by version. If the run goes well, all
groups are committed and reported, and the database has the version of the blueprint; if it fails,
some first groups are committed, each as a whole, and nothing else. -/
theorem migrateBy_commits (effect : Effect) {b : Blueprint} (hb : b.version ≤ greatestVersion)
    (directory : Option MigrationDirectory) (s : Session) :
    if b.version < s.database.storedVersion then
      b.migrateBy effect directory s
        = (s, .error (.downgrade s.database.storedVersion b.version))
    else
      ∃ ms gs, Migration.InOrder (b.candidates directory s.database) ms ∧
        Migration.Grouped ms gs ∧
        match b.migrateBy effect directory s with
        | (s', .ok summary) =>
          (∃ s₁, Commits effect directory gs s s₁ ∧
            if b.IsDue s.database then b.complete s₁ = .ok s' else s' = s₁) ∧
          s'.database.storedVersion = b.version ∧
          summary = ⟨s.database.storedVersion, b.version, decide (IsFresh s.database),
            ms.map Migration.name⟩
        | (s', .error e) =>
          ∃ done rest, gs = done ++ rest ∧ Commits effect directory done s s' ∧
            Stops effect b directory s.database rest s' e := by
  generalize hrun : b.migrateBy effect directory s = result
  have houtcome := migrateBy_outcome effect b directory s
  rw [hrun] at houtcome
  cases houtcome with
  | ahead hahead => rw [if_pos hahead]
  | settled heq hdue =>
    rw [if_neg (by omega)]
    have hplans : b.Plans directory s.database [] [] := .nil (candidates_eq_nil hdue)
    refine ⟨[], [], hplans.order, hplans.grouped, ⟨s, .nil s, ?_⟩, heq, ?_⟩
    · rw [if_neg hdue]
    · rw [heq, decide_eq_false fun hfresh => hdue (.inl hfresh)]
      rfl
  | completed hle hdue hplans hcommits hcomplete =>
    rw [if_neg (by omega)]
    obtain ⟨s₂, rfl⟩ := exists_stamp_of_complete hcomplete
    refine ⟨_, _, hplans.order, hplans.grouped, ⟨_, hcommits, ?_⟩, storedVersion_stamp hb s₂, rfl⟩
    rwa [if_pos hdue]
  | stopped hle hplans hcommits hstops =>
    rw [if_neg (by omega)]
    exact ⟨_, _, hplans.order, hplans.grouped, _, _, rfl, hcommits, hstops⟩

/-- Two migrations of one version, and one of the next which is no statement. -/
def halfBroken : MigrationDirectory :=
  ⟨"migrations", some [
    (⟨"migration.v2.1000.sql", none, true⟩, some "CREATE TABLE t (a);"),
    (⟨"migration.v2.2000.sql", none, true⟩, some "INSERT INTO t VALUES (1);"),
    (⟨"migration.v3.sql", none, true⟩, some "nonsense")]⟩

/-- The migrations of the first version are committed together when that of the next fails. -/
theorem migrateBy_commits_halfBroken :
    3 ≤ greatestVersion ∧
      ∃ done rest s', Commits (fun text s => s.runInside text) (some halfBroken) done
          (Session.start ⟨[], [], [], none, 1⟩ 0) s' ∧
        s'.database.storedVersion = 2 ∧
        (s'.database.table? "t").map Table.rows = some [⟨1, [.int 1]⟩] ∧
        Stops (fun text s => s.runInside text) ⟨[], 3⟩ (some halfBroken) ⟨[], [], [], none, 1⟩ rest
          s' (.statement "migration.v3.sql" (.refused .malformed)) := by
  refine ⟨by decide, ?_⟩
  have h := migrateBy_commits (fun text s => s.runInside text) (b := ⟨[], 3⟩) (by decide)
    (some halfBroken) (Session.start ⟨[], [], [], none, 1⟩ 0)
  have hrun : (⟨[], 3⟩ : Blueprint).migrateBy (fun text s => s.runInside text) (some halfBroken)
      (Session.start ⟨[], [], [], none, 1⟩ 0)
      = (Session.start ⟨[⟨"t", [⟨"a", .blob, false, none, .const .null⟩], [], [⟨1, [.int 1]⟩]⟩], [],
          [], none, 2⟩ 0, .error (.statement "migration.v3.sql" (.refused .malformed))) := by
    rw [migrateBy, migrateWith, pending_of_sorted (d := halfBroken) rfl (by decide +kernel)]
    decide +kernel
  rw [if_neg (by decide), hrun] at h
  obtain ⟨ms, gs, -, -, done, rest, -, hcommits, hstops⟩ := h
  exact ⟨done, rest, _, hcommits, rfl, rfl, hstops⟩

end Blueprint

end AccountHistory
