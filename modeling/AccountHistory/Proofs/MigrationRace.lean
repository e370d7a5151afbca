import Mathlib.Data.List.Induction
import Mathlib.Data.List.Infix
import Mathlib.Data.List.Nodup
import AccountHistory.Proofs.MigrationSteps

/-!
# Runs of migrations at once

Several runs of one blueprint may use a database at once, each with its own session. A run reads the
version once, and commits groups by what it has read then, whatever others have done meanwhile:

* a log says which run has read which version, committed which group, or made the missing tables;
* `Lawful` is what is true of the log of any runs: groups lie beyond the version that their run has
  read, and each run commits its groups in order;
* `HasLateCommit` says of a log that a run commits a group when another one has come as far since it
  read the version;
* `race_safe_iff`: no group is committed twice and the version never falls just if there is no such
  commit, in whatever order the runs take their steps.
-/

namespace AccountHistory

open Store

namespace Blueprint

variable {ι : Type} {b : Blueprint} {initial : Nat}

/-! ## Logs -/

/-- The version that is written. -/
def Deed.written? (b : Blueprint) : Deed → Option Nat
  | .reads _ => none
  | .commits version => some version
  | .completes => some b.version

/-- The version whose migrations are committed. -/
def Deed.group? : Deed → Option Nat
  | .commits version => some version
  | _ => none

/-- The versions written, in order. -/
def written (b : Blueprint) (log : List (ι × Deed)) : List Nat :=
  log.filterMap fun e => e.2.written? b

/-- The versions whose migrations were committed, in order. -/
def committed (log : List (ι × Deed)) : List Nat :=
  log.filterMap fun e => e.2.group?

/-- The version behind a log, which begins with another one. -/
def current (b : Blueprint) (initial : Nat) (log : List (ι × Deed)) : Nat :=
  (written b log).getLastD initial

/-- The version never falls. -/
def Rising (b : Blueprint) (initial : Nat) (log : List (ι × Deed)) : Prop :=
  (initial :: written b log).Pairwise (· ≤ ·)

section Logs

variable {log before after : List (ι × Deed)} {e : ι × Deed} {i : ι} {stored bound v : Nat}

theorem written_concat :
    written b (log ++ [e]) = written b log ++ (e.2.written? b).toList := by
  rw [written, List.filterMap_append, List.filterMap_cons, List.filterMap_nil]
  cases e.2.written? b <;> rfl

theorem committed_concat : committed (log ++ [e]) = committed log ++ e.2.group?.toList := by
  rw [committed, List.filterMap_append, List.filterMap_cons, List.filterMap_nil]
  cases e.2.group? <;> rfl

theorem current_concat :
    current b initial (log ++ [e]) = (e.2.written? b).getD (current b initial log) := by
  rw [current, written_concat]
  cases e.2.written? b with
  | none => rw [Option.toList_none, List.append_nil, Option.getD_none, current]
  | some v => rw [Option.toList_some, List.getLastD_concat, Option.getD_some]

theorem mem_written_of_group? (he : e ∈ log) (hv : e.2.group? = some v) : v ∈ written b log := by
  refine List.mem_filterMap.mpr ⟨e, he, ?_⟩
  cases hd : e.2 with
  | commits u =>
    rw [hd] at hv
    exact hv
  | reads | completes =>
    rw [hd] at hv
    cases hv

/-- While the version does not fall, the last one is the greatest. -/
theorem Rising.le_current (h : Rising b initial log) :
    ∀ v ∈ initial :: written b log, v ≤ current b initial log := by
  rw [Rising] at h
  rw [current]
  generalize written b log = versions at h
  induction versions using List.reverseRecOn with
  | nil => exact fun v hv => Nat.le_of_eq (List.mem_singleton.mp hv)
  | append_singleton vs last _ =>
    intro v hv
    rw [List.getLastD_concat]
    rw [← List.cons_append] at h hv
    rcases List.mem_append.mp hv with hv | hv
    · exact (List.pairwise_append.mp h).2.2 v hv last (List.mem_singleton_self last)
    · exact Nat.le_of_eq (List.mem_singleton.mp hv)

theorem Rising.of_append (h : Rising b initial (before ++ after)) : Rising b initial before := by
  rw [Rising, written, List.filterMap_append, ← List.cons_append] at h
  exact (List.pairwise_append.mp h).1

theorem rising_concat : Rising b initial (log ++ [e]) ↔
    Rising b initial log ∧ ∀ v, e.2.written? b = some v → current b initial log ≤ v := by
  have hsplit : Rising b initial (log ++ [e]) ↔ Rising b initial log ∧
      ∀ u ∈ initial :: written b log, ∀ v, e.2.written? b = some v → u ≤ v := by
    rw [Rising, written_concat, ← List.cons_append, List.pairwise_append, Rising]
    cases e.2.written? b <;> simp
  rw [hsplit]
  refine and_congr_right fun hrising => ⟨fun h => h _ ?_, fun h u hu v hv => ?_⟩
  · exact List.getLastD_mem_cons
  · exact Nat.le_trans (hrising.le_current u hu) (h v hv)

/-- What is written behind a log bounds the version. -/
theorem current_append_le (h : current b initial before ≤ v)
    (hafter : ∀ e ∈ after, ∀ u, e.2.written? b = some u → u ≤ v) :
    current b initial (before ++ after) ≤ v := by
  induction after using List.reverseRecOn with
  | nil => rwa [List.append_nil]
  | append_singleton after e ih =>
    have hbefore := ih fun e' he' => hafter e' (List.mem_append_left _ he')
    rw [← List.append_assoc, current_concat]
    cases hwritten : e.2.written? b with
    | none => exact hbefore
    | some u => exact hafter e List.mem_concat_self u hwritten

/-- The run has read a version as it was then, and all that it has done since is to commit groups
below a bound. -/
def HasRead (b : Blueprint) (initial : Nat) (log : List (ι × Deed)) (i : ι) (stored bound : Nat) :
    Prop :=
  ∃ before after, log = before ++ (i, .reads stored) :: after ∧
    current b initial before = stored ∧
    ∀ d, (i, d) ∈ after → ∃ version, version < bound ∧ d = .commits version

theorem HasRead.mono {bound' : Nat} (h : HasRead b initial log i stored bound)
    (hle : bound ≤ bound') : HasRead b initial log i stored bound' := by
  obtain ⟨before, after, hlog, hcurrent, hown⟩ := h
  refine ⟨before, after, hlog, hcurrent, fun d hd => ?_⟩
  obtain ⟨version, hlt, hversion⟩ := hown d hd
  exact ⟨version, Nat.lt_of_lt_of_le hlt hle, hversion⟩

theorem HasRead.concat (h : HasRead b initial log i stored bound)
    (he : e.1 = i → ∃ version, version < bound ∧ e.2 = .commits version) :
    HasRead b initial (log ++ [e]) i stored bound := by
  obtain ⟨before, after, rfl, hcurrent, hown⟩ := h
  refine ⟨before, after ++ [e], ?_, hcurrent, fun d hd => ?_⟩
  · rw [List.append_assoc, List.cons_append]
  · rcases List.mem_append.mp hd with hd | hd
    · exact hown d hd
    · obtain rfl := List.mem_singleton.mp hd
      exact he rfl

/-- What may be in the log of runs, whatever the order of their steps. -/
inductive Lawful (b : Blueprint) (initial : Nat) : List (ι × Deed) → Prop
  /-- nothing has been done yet -/
  | nil : Lawful b initial []
  /-- the current version is read -/
  | reads {log : List (ι × Deed)} (i : ι) : Lawful b initial log →
      Lawful b initial (log ++ [(i, .reads (current b initial log))])
  /-- a run commits a group beyond the version that it has read, after those below it -/
  | commits {log : List (ι × Deed)} {i : ι} {stored version : Nat} : Lawful b initial log →
      initial ≤ b.version → version ≤ b.version → stored < version →
      HasRead b initial log i stored version → Lawful b initial (log ++ [(i, .commits version)])
  /-- a run makes what is missing -/
  | completes {log : List (ι × Deed)} (i : ι) : Lawful b initial log → initial ≤ b.version →
      Lawful b initial (log ++ [(i, .completes)])

/-- No run leads beyond the version of the blueprint. -/
theorem Lawful.current_le (h : Lawful b initial log) (hinitial : initial ≤ b.version) :
    current b initial log ≤ b.version := by
  induction h with
  | nil => exact hinitial
  | reads _ _ ih =>
    rw [current_concat]
    exact ih
  | commits _ _ hle =>
    rw [current_concat]
    exact hle
  | completes =>
    rw [current_concat]
    exact Nat.le_refl _

/-- A version that is not beyond the blueprint was not beyond it at first. -/
theorem Lawful.initial_le (h : Lawful b initial log)
    (hcurrent : current b initial log ≤ b.version) : initial ≤ b.version := by
  induction h with
  | nil => exact hcurrent
  | reads _ _ ih =>
    rw [current_concat] at hcurrent
    exact ih hcurrent
  | commits _ hinitial => exact hinitial
  | completes _ _ hinitial => exact hinitial

/-! ## Late commits -/

/-- Since the run has read the version, another one has committed a version or a later one, or has
made the tables of a later one. -/
def IsOvertaken (b : Blueprint) (log : List (ι × Deed)) (i : ι) (version : Nat) : Prop :=
  ∃ before stored after, log = before ++ (i, .reads stored) :: after ∧
    ∃ e ∈ after, e.1 ≠ i ∧
      ((∃ u, e.2 = .commits u ∧ version ≤ u) ∨ (e.2 = .completes ∧ version < b.version))

/-- A run commits a group for which it has been overtaken. -/
def HasLateCommit (b : Blueprint) (log : List (ι × Deed)) : Prop :=
  ∃ before i version, before ++ [(i, .commits version)] <+: log ∧ IsOvertaken b before i version

theorem hasLateCommit_concat : HasLateCommit b (log ++ [e]) ↔
    HasLateCommit b log ∨ ∃ i version, e = (i, .commits version) ∧ IsOvertaken b log i version := by
  constructor
  · rintro ⟨before, i, version, hfront, hovertaken⟩
    rcases List.prefix_concat_iff.mp hfront with heq | hfront
    · obtain ⟨rfl, hlast⟩ := List.append_inj' heq rfl
      exact .inr ⟨i, version, (List.singleton_inj.mp hlast).symm, hovertaken⟩
    · exact .inl ⟨before, i, version, hfront, hovertaken⟩
  · rintro (⟨before, i, version, hfront, hovertaken⟩ | ⟨i, version, rfl, hovertaken⟩)
    · exact ⟨before, i, version, hfront.trans (List.prefix_append _ _), hovertaken⟩
    · exact ⟨log, i, version, List.prefix_refl _, hovertaken⟩

/-- Who is new at a version and lowers nothing has not been overtaken: whoever had come as far would
have written what the version was then, and it has not fallen since. -/
theorem not_isOvertaken (hrising : Rising b initial log) (hnew : v ∉ committed log)
    (hcurrent : current b initial log ≤ v) : ¬IsOvertaken b log i v := by
  rintro ⟨before, stored', after, rfl, e, he, -, hcase⟩
  have hmem : e ∈ before ++ (i, .reads stored') :: after :=
    List.mem_append_right _ (List.mem_cons_of_mem _ he)
  rcases hcase with ⟨u, hcommits, hle⟩ | ⟨hcompletes, hbefore⟩
  · have hgroup : e.2.group? = some u := by rw [hcommits]; rfl
    have hu := hrising.le_current u (List.mem_cons_of_mem _ (mem_written_of_group? hmem hgroup))
    obtain rfl : u = v := by omega
    exact hnew (List.mem_filterMap.mpr ⟨e, hmem, hgroup⟩)
  · have hwritten : b.version ∈ written b (before ++ (i, .reads stored') :: after) :=
      List.mem_filterMap.mpr ⟨e, hmem, by rw [hcompletes]; rfl⟩
    have := hrising.le_current _ (List.mem_cons_of_mem _ hwritten)
    omega

/-- The deed writes no later version and does not commit this one. -/
def Deed.LeavesFree (b : Blueprint) (version : Nat) (d : Deed) : Prop :=
  (∀ u, d.written? b = some u → u ≤ version) ∧ d.group? ≠ some version

theorem leavesFree_commits {u : Nat} (h : u < v) : (Deed.commits u).LeavesFree b v := by
  refine ⟨fun u' hu' => ?_, fun hv => ?_⟩
  · obtain rfl := Option.some.inj hu'
    exact Nat.le_of_lt h
  · obtain rfl := Option.some.inj hv
    exact Nat.lt_irrefl _ h

/-- Where a run has not been overtaken, neither it nor another one has come as far since its reading.
-/
theorem leavesFree_of_not_isOvertaken
    (hclear : ¬IsOvertaken b (before ++ (i, .reads stored) :: after) i v)
    (hown : ∀ d, (i, d) ∈ after → ∃ version, version < v ∧ d = .commits version)
    (he : e ∈ after) : e.2.LeavesFree b v := by
  obtain ⟨j, d⟩ := e
  by_cases hj : j = i
  · subst hj
    obtain ⟨u, hu, rfl⟩ := hown d he
    exact leavesFree_commits hu
  · have hother := fun hcase => hclear ⟨before, stored, after, rfl, (j, d), he, hj, hcase⟩
    cases d with
    | reads => exact ⟨fun u hu => (nomatch hu), fun hv => (nomatch hv)⟩
    | commits u =>
      exact leavesFree_commits (Nat.lt_of_not_le fun hle => hother (.inl ⟨u, rfl, hle⟩))
    | completes =>
      refine ⟨fun u hu => ?_, fun hv => (nomatch hv)⟩
      obtain rfl := Option.some.inj hu
      exact Nat.le_of_not_lt fun hlater => hother (.inr ⟨rfl, hlater⟩)

/-- A commit is new and lowers nothing just if its run has not been overtaken. -/
theorem HasRead.safe_iff (h : HasRead b initial log i stored v) (hlt : stored < v)
    (hrising : Rising b initial log) :
    (v ∉ committed log ∧ current b initial log ≤ v) ↔ ¬IsOvertaken b log i v := by
  refine ⟨fun hsafe => not_isOvertaken hrising hsafe.1 hsafe.2, fun hclear => ?_⟩
  obtain ⟨before, after, rfl, rfl, hown⟩ := h
  refine ⟨fun hmem => ?_, current_append_le (Nat.le_of_lt hlt) fun e he => ?_⟩
  · obtain ⟨e, he, hgroup⟩ := List.mem_filterMap.mp hmem
    rcases List.mem_append.mp he with he | he
    · -- before the reading nobody had come as far
      have := hrising.of_append.le_current v
        (List.mem_cons_of_mem _ (mem_written_of_group? he hgroup))
      omega
    · rcases List.mem_cons.mp he with rfl | he
      · cases hgroup
      · exact (leavesFree_of_not_isOvertaken hclear hown he).2 hgroup
  · rcases List.mem_cons.mp he with rfl | he
    · exact fun u hu => (nomatch hu)
    · exact (leavesFree_of_not_isOvertaken hclear hown he).1

/-- In the log of runs no group is committed twice and the version never falls just if no commit is
late. -/
theorem Lawful.safe_iff (h : Lawful b initial log) :
    ((committed log).Nodup ∧ Rising b initial log) ↔ ¬HasLateCommit b log := by
  induction h with
  | nil =>
    refine iff_of_true ⟨.nil, List.pairwise_singleton _ _⟩ ?_
    rintro ⟨before, i, version, hfront, -⟩
    exact List.concat_ne_nil _ _ (List.prefix_nil.mp hfront)
  | reads i _ ih =>
    rw [committed_concat, rising_concat, hasLateCommit_concat]
    simpa [Deed.group?, Deed.written?] using ih
  | @commits log i stored version _ _ _ hlt hread ih =>
    have hlast : (∃ j v, ((i, .commits version) : ι × Deed) = (j, .commits v) ∧
        IsOvertaken b log j v) ↔ IsOvertaken b log i version := by
      simp
    have hnodup : (committed (log ++ [(i, .commits version)])).Nodup ↔
        (committed log).Nodup ∧ version ∉ committed log := by
      rw [committed_concat]
      exact List.nodup_append_comm.trans (List.nodup_cons.trans and_comm)
    rw [hnodup, rising_concat, hasLateCommit_concat, hlast, not_or, ← ih]
    constructor
    · rintro ⟨⟨hnodup, hnew⟩, hrising, hle⟩
      exact ⟨⟨hnodup, hrising⟩, (hread.safe_iff hlt hrising).mp ⟨hnew, hle version rfl⟩⟩
    · rintro ⟨⟨hnodup, hrising⟩, hclear⟩
      obtain ⟨hnew, hle⟩ := (hread.safe_iff hlt hrising).mpr hclear
      refine ⟨⟨hnodup, hnew⟩, hrising, fun v hv => ?_⟩
      obtain rfl := Option.some.inj hv
      exact hle
  | completes i h hinitial ih =>
    have hle := h.current_le hinitial
    rw [committed_concat, rising_concat, hasLateCommit_concat]
    simpa [Deed.group?, Deed.written?, hle] using ih

end Logs

/-! ## Steps of several runs -/

/-- A database and the runs that use it. -/
structure Race (ι : Type) where
  /-- the database that all share -/
  database : Database
  /-- the session of each run, of which the settings are its own -/
  sessions : ι → Session
  /-- how far each run has come -/
  stages : ι → Stage
  /-- what has been done so far -/
  log : List (ι × Deed)

namespace Race

/-- No run has taken a step yet. -/
def start (db : Database) (sessions : ι → Session) : Race ι := ⟨db, sessions, fun _ => .fresh, []⟩

/-- One run takes a step on the database as it is now. -/
def step [DecidableEq ι] (effect : Effect) (b : Blueprint) (directory : Option MigrationDirectory)
    (r : Race ι) (i : ι) : Race ι :=
  let turn := (r.stages i).turn effect b directory ((r.sessions i).withDatabase r.database)
  { database := turn.session.database
    sessions := fun j => if j = i then turn.session else r.sessions j
    stages := fun j => if j = i then turn.stage else r.stages j
    log := r.log ++ (turn.deed.map (Prod.mk i)).toList }

/-- Runs take steps in the order of a schedule. -/
def run [DecidableEq ι] (effect : Effect) (b : Blueprint) (directory : Option MigrationDirectory)
    (schedule : List ι) (r : Race ι) : Race ι :=
  schedule.foldl (step effect b directory) r

/-- No step of a schedule lowers the version of the database. -/
def NeverLowers [DecidableEq ι] (effect : Effect) (b : Blueprint)
    (directory : Option MigrationDirectory) (schedule : List ι) (r : Race ι) : Prop :=
  ∀ before i, before ++ [i] <+: schedule →
    (run effect b directory before r).database.storedVersion
      ≤ (run effect b directory (before ++ [i]) r).database.storedVersion

end Race

section Races

variable {effect : Effect} {directory : Option MigrationDirectory} {stage : Stage}
  {log : List (ι × Deed)} {i j : ι} {e : ι × Deed} {s : Session} {stored : Nat}

/-- What a run knows agrees with the log. -/
def Stage.Fits (b : Blueprint) (initial : Nat) (log : List (ι × Deed)) (i : ι) : Stage → Prop
  | .fresh => True
  | .unversioned => initial ≤ b.version ∧ HasRead b initial log i 0 0
  | .empty => initial ≤ b.version
  | .groups stored _ rest =>
    initial ≤ b.version ∧ Migration.Grouped rest.flatten rest ∧ ∀ m ∈ rest.flatten,
      stored < m.version ∧ m.version ≤ b.version ∧ HasRead b initial log i stored m.version
  | .ended _ => True

/-- What others do makes no difference to what a run knows. -/
theorem Stage.Fits.concat_of_ne (h : stage.Fits b initial log i) (hne : e.1 ≠ i) :
    stage.Fits b initial (log ++ [e]) i := by
  cases stage with
  | fresh => trivial
  | unversioned => exact ⟨h.1, h.2.concat fun he => absurd he hne⟩
  | empty => exact h
  | groups stored applied rest =>
    refine ⟨h.1, h.2.1, fun m hm => ?_⟩
    obtain ⟨hlt, hle, hread⟩ := h.2.2 m hm
    exact ⟨hlt, hle, hread.concat fun he => absurd he hne⟩
  | ended => trivial

theorem pending_ok {ms : List Migration} (h : b.pending stored directory = .ok ms) :
    Migration.Grouped ms (Blueprint.groups ms) ∧
      ∀ m ∈ ms, stored < m.version ∧ m.version ≤ b.version := by
  cases directory with
  | none =>
    obtain rfl := Except.ok.inj h
    exact ⟨.nil, fun m hm => nomatch hm⟩
  | some d =>
    cases hd : d.entries with
    | none =>
      rw [pending, hd] at h
      cases h
    | some entries =>
      obtain ⟨ms', hms', horder⟩ := pending_inOrder (b := b) hd
      obtain rfl := Except.ok.inj (hms'.symm.trans h)
      refine ⟨horder.grouped, fun m hm => ?_⟩
      have hwanted := horder.perm.mem_iff.mp hm
      simp only [Migration.wanted, List.mem_filter, decide_eq_true_eq] at hwanted
      exact hwanted.2.2

/-- What is planned after a reading fits it. -/
theorem fits_planned (hinitial : initial ≤ b.version) (hread : HasRead b initial log i stored 0) :
    (b.planned directory stored).Fits b initial log i := by
  rw [planned]
  cases hpending : b.pending stored directory with
  | error e => trivial
  | ok ms =>
    obtain ⟨hgrouped, hversions⟩ := pending_ok hpending
    refine ⟨hinitial, hgrouped.flatten.symm ▸ hgrouped, fun m hm => ?_⟩
    rw [hgrouped.flatten] at hm
    exact ⟨(hversions m hm).1, (hversions m hm).2, hread.mono (Nat.zero_le _)⟩

/-- A step of a run goes on from a log. -/
structure Turn.Extends (b : Blueprint) (initial : Nat) (log : List (ι × Deed)) (i : ι) (t : Turn) :
    Prop where
  /-- what it does may be done -/
  lawful : Lawful b initial (log ++ (t.deed.map (Prod.mk i)).toList)
  /-- the version is the one written last -/
  version : t.session.database.storedVersion
    = current b initial (log ++ (t.deed.map (Prod.mk i)).toList)
  /-- what the run knows agrees with what has been done -/
  fits : t.stage.Fits b initial (log ++ (t.deed.map (Prod.mk i)).toList) i

/-- A step that does nothing to the version. -/
theorem extends_idle (hlawful : Lawful b initial log)
    (hversion : s.database.storedVersion = current b initial log)
    (hfits : stage.Fits b initial log i) : (⟨stage, s, none⟩ : Turn).Extends b initial log i := by
  refine ⟨?_, ?_, ?_⟩ <;> rw [Option.map_none, Option.toList_none, List.append_nil]
  · exact hlawful
  · exact hversion
  · exact hfits

/-- A step that reads the version or writes one. -/
theorem extends_deed {d : Deed} (hlawful : Lawful b initial (log ++ [(i, d)]))
    (hversion : s.database.storedVersion = (d.written? b).getD (current b initial log))
    (hfits : stage.Fits b initial (log ++ [(i, d)]) i) :
    (⟨stage, s, some d⟩ : Turn).Extends b initial log i := by
  refine ⟨hlawful, ?_, hfits⟩
  rw [Option.map_some, Option.toList_some, current_concat]
  exact hversion

theorem extends_finish (hb : b.version ≤ greatestVersion) (hlawful : Lawful b initial log)
    (hversion : s.database.storedVersion = current b initial log) (hinitial : initial ≤ b.version)
    (summary : MigrationSummary) : (b.finish s summary).Extends b initial log i := by
  rw [finish]
  cases hcomplete : b.complete s with
  | error e => exact extends_idle hlawful hversion trivial
  | ok s' =>
    obtain ⟨s₁, rfl⟩ := exists_stamp_of_complete hcomplete
    exact extends_deed (hlawful.completes i hinitial) (storedVersion_stamp hb s₁) trivial

/-- A group is committed as a whole: the run has committed those before it since its reading, and
the groups that are left come after it. -/
theorem extends_commit (hb : b.version ≤ greatestVersion) (hlawful : Lawful b initial log)
    {m : Migration} {ms : List Migration} {rest : List (List Migration)} {applied : List String}
    (hfits : (Stage.groups stored applied ((m :: ms) :: rest)).Fits b initial log i)
    (applied' : List String) (s₁ : Session) :
    (⟨.groups stored applied' rest, stamp m.version s₁, some (.commits m.version)⟩ : Turn).Extends b
      initial log i := by
  obtain ⟨hinitial, hgrouped, hgroups⟩ := hfits
  obtain ⟨hlt, hle, hread⟩ := hgroups m (by simp)
  refine extends_deed (hlawful.commits hinitial hle hlt hread)
    (storedVersion_stamp (Nat.le_trans hle hb) s₁) ⟨hinitial, ?_, fun n hn => ?_⟩
  · exact ⟨rfl, fun g hg => hgrouped.nonempty g (.tail _ hg),
      fun g hg => hgrouped.single g (.tail _ hg), (List.pairwise_cons.mp hgrouped.ascending).2⟩
  · obtain ⟨g, hg, hng⟩ := List.mem_flatten.mp hn
    have hafter : m.version < n.version :=
      (List.pairwise_cons.mp hgrouped.ascending).1 g hg m (.head ms) n hng
    obtain ⟨hlt', hle', hread'⟩ := hgroups n (List.mem_flatten.mpr ⟨g, .tail _ hg, hng⟩)
    exact ⟨hlt', hle', hread'.concat fun _ => ⟨m.version, hafter, rfl⟩⟩

/-- **One step.** Whatever a run does next, it may do it. -/
theorem extends_turn (hb : b.version ≤ greatestVersion) (hlawful : Lawful b initial log)
    (hversion : s.database.storedVersion = current b initial log)
    (hfits : stage.Fits b initial log i) :
    (stage.turn effect b directory s).Extends b initial log i := by
  cases stage with
  | fresh =>
    have hread : HasRead b initial (log ++ [(i, .reads (current b initial log))]) i
        (current b initial log) 0 := ⟨log, [], rfl, rfl, fun d hd => nomatch hd⟩
    rw [Stage.turn, hversion]
    refine extends_deed (hlawful.reads i) hversion ?_
    split
    case isTrue => trivial
    case isFalse hle =>
      have hinitial := hlawful.initial_le (Nat.le_of_not_lt hle)
      split
      case isTrue hzero =>
        rw [hzero] at hread ⊢
        exact ⟨hinitial, hread⟩
      case isFalse => exact fits_planned hinitial hread
  | unversioned =>
    refine extends_idle hlawful hversion ?_
    split
    · exact hfits.1
    · exact fits_planned hfits.1 hfits.2
  | empty => exact extends_finish hb hlawful hversion hfits _
  | groups stored applied rest =>
    cases rest with
    | nil =>
      rw [Stage.turn]
      split
      · exact extends_finish hb hlawful hversion hfits.1 _
      · exact extends_idle hlawful hversion trivial
    | cons g rest =>
      rw [Stage.turn]
      cases hrun : runGroup effect directory g s with
      | error e => exact extends_idle hlawful hversion trivial
      | ok s' =>
        obtain ⟨m, ms, rfl⟩ := List.exists_cons_of_ne_nil (hfits.2.1.nonempty g (.head rest))
        obtain ⟨s₁, -, rfl⟩ := exists_of_map hrun
        exact extends_commit hb hlawful hfits _ s₁
  | ended result => exact extends_idle hlawful hversion trivial

namespace Race

variable {r : Race ι}

/-- What is true of runs after any steps. -/
structure Consistent (b : Blueprint) (initial : Nat) (r : Race ι) : Prop where
  /-- what was done may be done -/
  lawful : Lawful b initial r.log
  /-- the version is the one written last -/
  version : r.database.storedVersion = current b initial r.log
  /-- what the runs know agrees with what was done -/
  fits : ∀ i, (r.stages i).Fits b initial r.log i

theorem Consistent.start (b : Blueprint) (db : Database) (sessions : ι → Session) :
    Consistent b db.storedVersion (start db sessions) :=
  ⟨.nil, rfl, fun _ => trivial⟩

variable [DecidableEq ι]

theorem Consistent.step (h : Consistent b initial r) (hb : b.version ≤ greatestVersion) (i : ι) :
    Consistent b initial (r.step effect b directory i) := by
  have hextends : ((r.stages i).turn effect b directory
      ((r.sessions i).withDatabase r.database)).Extends b initial r.log i :=
    extends_turn hb h.lawful h.version (h.fits i)
  refine ⟨hextends.lawful, hextends.version, fun j => ?_⟩
  change (if j = i then _ else _ : Stage).Fits b initial _ j
  split
  case isTrue hj =>
    subst hj
    exact hextends.fits
  case isFalse hj =>
    simp only [Race.step]
    cases ((r.stages i).turn effect b directory
      ((r.sessions i).withDatabase r.database)).deed with
    | none =>
      rw [Option.map_none, Option.toList_none, List.append_nil]
      exact h.fits j
    | some d => exact (h.fits j).concat_of_ne fun heq => hj heq.symm

theorem Consistent.run (h : Consistent b initial r) (hb : b.version ≤ greatestVersion)
    (schedule : List ι) : Consistent b initial (run effect b directory schedule r) := by
  induction schedule generalizing r with
  | nil => exact h
  | cons i rest ih => exact ih (h.step hb i)

theorem run_concat {schedule : List ι} : run effect b directory (schedule ++ [i]) r
    = (run effect b directory schedule r).step effect b directory i := by
  rw [run, List.foldl_append]
  rfl

theorem neverLowers_concat {schedule : List ι} :
    NeverLowers effect b directory (schedule ++ [i]) r ↔
      NeverLowers effect b directory schedule r ∧
        (run effect b directory schedule r).database.storedVersion
          ≤ (run effect b directory (schedule ++ [i]) r).database.storedVersion := by
  constructor
  · intro h
    exact ⟨fun before j hfront => h before j (hfront.trans (List.prefix_append _ _)),
      h schedule i (List.prefix_refl _)⟩
  · rintro ⟨hbefore, hlast⟩ before j hfront
    rcases List.prefix_concat_iff.mp hfront with heq | hfront
    · obtain ⟨rfl, hj⟩ := List.append_inj' heq rfl
      obtain rfl := List.singleton_inj.mp hj
      exact hlast
    · exact hbefore before j hfront

/-- A step lowers the version just if what it writes is below it. -/
theorem rising_step (h : Consistent b initial r) (hb : b.version ≤ greatestVersion) :
    Rising b initial (r.step effect b directory i).log ↔ Rising b initial r.log ∧
      r.database.storedVersion ≤ (r.step effect b directory i).database.storedVersion := by
  have hnext : Consistent b initial (r.step effect b directory i) := h.step hb i
  rw [h.version, hnext.version]
  simp only [Race.step]
  cases ((r.stages i).turn effect b directory ((r.sessions i).withDatabase r.database)).deed with
  | none => simp
  | some d =>
    rw [Option.map_some, Option.toList_some, rising_concat, current_concat]
    cases d.written? b <;> simp

theorem neverLowers_iff (hb : b.version ≤ greatestVersion) (db : Database)
    (sessions : ι → Session) (schedule : List ι) :
    NeverLowers effect b directory schedule (start db sessions) ↔
      Rising b db.storedVersion (run effect b directory schedule (start db sessions)).log := by
  induction schedule using List.reverseRecOn with
  | nil =>
    refine iff_of_true (fun before i hfront => ?_) (List.pairwise_singleton _ _)
    exact absurd (List.prefix_nil.mp hfront) (List.append_ne_nil_of_right_ne_nil _ (by simp))
  | append_singleton schedule i ih =>
    have hconsistent : Consistent b db.storedVersion
        (run effect b directory schedule (start db sessions)) :=
      (Consistent.start b db sessions).run hb schedule
    rw [neverLowers_concat, ih, run_concat, rising_step hconsistent hb]

/-- **Runs at once.** Whatever runs of one blueprint do at once, each step on the database as it is
by then: no group of migrations is committed twice and the version never falls, if and only if no
run commits a group after another one has come as far since it read the version. -/
theorem race_safe_iff (hb : b.version ≤ greatestVersion) (effect : Effect)
    (directory : Option MigrationDirectory) (db : Database) (sessions : ι → Session)
    (schedule : List ι) :
    ((committed (run effect b directory schedule (start db sessions)).log).Nodup ∧
        NeverLowers effect b directory schedule (start db sessions)) ↔
      ¬HasLateCommit b (run effect b directory schedule (start db sessions)).log := by
  rw [neverLowers_iff hb]
  exact ((Consistent.start b db sessions).run hb schedule).lawful.safe_iff

end Race

end Races

namespace Race

/-- Migrations to the versions two and three, which do nothing. -/
def idleMigrations : MigrationDirectory :=
  ⟨"migrations", some [(⟨"migration.v2.sql", none, true⟩, some "SELECT 1;"),
    (⟨"migration.v3.sql", none, true⟩, some "SELECT 1;")]⟩

/-- A session on a database of the version one. -/
def versionOne : Session := .start ⟨[], [], [], none, 1⟩ 0

/-- The two groups of them. -/
def idleGroups : List (List Migration) :=
  [[⟨"migration.v2.sql", 2, 0, "sql", none⟩], [⟨"migration.v3.sql", 3, 0, "sql", none⟩]]

theorem planned_idleMigrations :
    planned ⟨[], 3⟩ (some idleMigrations) 1 = .groups 1 [] idleGroups := by
  have hpending : pending ⟨[], 3⟩ 1 (some idleMigrations) = .ok idleGroups.flatten := by
    rw [pending_of_sorted rfl (by decide +kernel)]
    decide +kernel
  rw [planned, hpending]
  exact congrArg (Stage.groups 1 []) (by decide +kernel)

/-- Both of two runs have read the version one. -/
def bothRead : Race Bool where
  database := versionOne.database
  sessions := fun _ => versionOne
  stages := fun _ => .groups 1 [] idleGroups
  log := [(true, .reads 1), (false, .reads 1)]

theorem run_bothRead : run (fun text s => s.runInside text) ⟨[], 3⟩ (some idleMigrations)
    [true, false] (start versionOne.database fun _ => versionOne) = bothRead := by
  have hversion : versionOne.database.storedVersion = 1 := by decide
  have hstages : (fun i => if i = false then Stage.groups 1 [] idleGroups
      else if i = true then Stage.groups 1 [] idleGroups else .fresh)
      = fun _ : Bool => Stage.groups 1 [] idleGroups := by
    funext i
    cases i <;> rfl
  have hsame : versionOne.withDatabase versionOne.database = versionOne := rfl
  simp [run, step, start, Stage.turn, hsame, hversion, planned_idleMigrations, hstages, bothRead]

/-- Both runs read the version, one commits both groups, and the other one commits the first. -/
def overtaking : Race Bool :=
  run (fun text s => s.runInside text) ⟨[], 3⟩ (some idleMigrations) [true, false, true, true, false]
    (start versionOne.database fun _ => versionOne)

theorem overtaking_eq : overtaking = run (fun text s => s.runInside text) ⟨[], 3⟩
    (some idleMigrations) [true, true, false] bothRead := by
  rw [← run_bothRead]
  rfl

/-- The first group is committed twice, and the version falls from three to two. -/
theorem race_safe_iff_overtaking :
    3 ≤ greatestVersion ∧ committed overtaking.log = [2, 3, 2] ∧
      overtaking.database.storedVersion = 2 ∧ HasLateCommit ⟨[], 3⟩ overtaking.log := by
  have hb : 3 ≤ greatestVersion := by decide
  have hcommitted : committed overtaking.log = [2, 3, 2] := by
    rw [overtaking_eq]
    decide +kernel
  have hversion : overtaking.database.storedVersion = 2 := by
    rw [overtaking_eq]
    decide +kernel
  refine ⟨hb, hcommitted, hversion, ?_⟩
  by_contra hclear
  obtain ⟨hnodup, -⟩ := (race_safe_iff (b := ⟨[], 3⟩) hb (fun text s => s.runInside text)
    (some idleMigrations) versionOne.database (fun _ => versionOne) _).mpr hclear
  exact absurd (hcommitted ▸ hnodup) (by decide)

end Race

end Blueprint

end AccountHistory
