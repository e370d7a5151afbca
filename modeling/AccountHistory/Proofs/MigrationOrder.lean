import Mathlib.Data.List.SplitBy
import AccountHistory.Migration.Blueprint

/-!
# The order in which migrations run

A directory asks for some of its migrations: those written in SQL that lead beyond the version of a
database and not beyond the one it is brought to. Here is what it means to have them in order, and
that `Blueprint.pending` has them so:

* `wanted` are the migrations asked for, as the directory lists them;
* `InOrder` says that a list is a stable sort of another by version and time;
* `Grouped` says that a list is cut where the version changes.
-/

namespace AccountHistory

namespace Migration

/-! ## Sorted lists of migrations -/

/-- The migrations that a directory asks for between two versions, as it lists them: regular files
written in SQL. -/
def wanted (stored supported : Nat) (entries : List DirectoryEntry) : List Migration :=
  ((entries.filter DirectoryEntry.isFile).filterMap ofEntry?).filter fun m =>
    m.kind = "sql" ∧ stored < m.version ∧ m.version ≤ supported

/-- The migrations `ms` are those of `listed`, by version and time. -/
structure InOrder (listed ms : List Migration) : Prop where
  /-- none is lost, added or repeated -/
  perm : ms.Perm listed
  /-- an earlier one has a smaller version, or the same version and no later time -/
  sorted : ms.Pairwise fun m n => m.version < n.version ∨ m.version = n.version ∧ m.time ≤ n.time
  /-- those that agree in version and time keep their order -/
  stable : ∀ (v : Nat) (t : Int),
    (ms.filter fun m => m.version = v ∧ m.time = t)
      = listed.filter fun m => m.version = v ∧ m.time = t

theorem le_iff {m n : Migration} :
    le m n = true ↔ m.version < n.version ∨ m.version = n.version ∧ m.time ≤ n.time := by
  simp [le]

theorem le_trans (l m n : Migration) (h : le l m = true) (h' : le m n = true) :
    le l n = true := by
  rw [le_iff] at *
  omega

theorem le_total (m n : Migration) : (le m n || le n m) = true := by
  rw [Bool.or_eq_true, le_iff, le_iff]
  omega

/-- A stable sort keeps the order of those that agree in version and time: they are a sorted part
of the list before, so they are one of the list after, and there are as many of them. -/
theorem filter_mergeSort (ms : List Migration) (v : Nat) (t : Int) :
    ((ms.mergeSort le).filter fun m => m.version = v ∧ m.time = t)
      = ms.filter fun m => m.version = v ∧ m.time = t := by
  have hsorted : (ms.filter fun m => m.version = v ∧ m.time = t).Pairwise (le · · = true) := by
    refine List.pairwise_of_forall_mem_list ?_
    intro m hm n hn
    simp only [List.mem_filter, decide_eq_true_eq] at hm hn
    rw [le_iff]
    omega
  have hsub := List.sublist_mergeSort le_trans le_total hsorted List.filter_sublist
  have hsub' := hsub.filter fun m => decide (m.version = v ∧ m.time = t)
  rw [List.filter_filter] at hsub'
  simp only [Bool.and_self] at hsub'
  exact (hsub'.eq_of_length_le
    ((List.mergeSort_perm ms le).filter _).length_eq.le).symm

theorem InOrder.nil : InOrder [] [] := by
  constructor <;> simp

/-- Sorting puts migrations in order. -/
theorem inOrder_mergeSort (ms : List Migration) : InOrder ms (ms.mergeSort le) where
  perm := List.mergeSort_perm ms le
  sorted := (List.pairwise_mergeSort le_trans le_total ms).imp fun e => le_iff.mp e
  stable := filter_mergeSort ms

/-- What is in order stays so when some migrations are left out. -/
theorem InOrder.filter {listed ms : List Migration} (h : InOrder listed ms)
    (p : Migration → Bool) : InOrder (listed.filter p) (ms.filter p) where
  perm := h.perm.filter p
  sorted := h.sorted.filter p
  stable := by
    intro v t
    rw [List.filter_comm, h.stable v t, List.filter_comm]

/-! ## Groups -/

/-- The groups `gs` are the migrations `ms`, cut where the version changes. -/
structure Grouped (ms : List Migration) (gs : List (List Migration)) : Prop where
  /-- the groups make up the whole list -/
  flatten : gs.flatten = ms
  /-- no group is empty -/
  nonempty : ∀ g ∈ gs, g ≠ []
  /-- a group is of one version -/
  single : ∀ g ∈ gs, ∀ m ∈ g, ∀ n ∈ g, m.version = n.version
  /-- a later group has a greater version -/
  ascending : gs.Pairwise fun g h => ∀ m ∈ g, ∀ n ∈ h, m.version < n.version

theorem Grouped.nil : Grouped [] [] := by
  constructor <;> simp

/-- The members of a list all neighbours of which agree in version agree in it. -/
theorem version_eq_of_isChain {g : List Migration}
    (h : g.IsChain fun m n => (m.version == n.version) = true) :
    ∀ m ∈ g, ∀ n ∈ g, m.version = n.version := by
  have hchain : g.IsChain fun m n => m.version = n.version := h.imp fun _ _ e => by simpa using e
  have hpair : g.Pairwise fun m n => m.version = n.version := hchain.pairwise
  cases g with
  | nil => simp
  | cons first rest =>
    have hfirst : ∀ m ∈ first :: rest, m.version = first.version := by
      intro m hm
      rcases List.mem_cons.mp hm with rfl | hm
      · rfl
      · exact ((List.pairwise_cons.mp hpair).1 m hm).symm
    intro m hm n hn
    rw [hfirst m hm, hfirst n hn]

/-- Groups between which the version never falls and changes at each border have rising versions.
By induction on the groups: the next group begins above the end of this one, and all the others
come after it. -/
theorem ascending_of_borders {gs : List (List Migration)} (hne : ∀ g ∈ gs, g ≠ [])
    (hin : ∀ g ∈ gs, g.Pairwise fun m n => m.version ≤ n.version)
    (hle : gs.Pairwise fun g h => ∀ m ∈ g, ∀ n ∈ h, m.version ≤ n.version)
    (hborder : gs.IsChain fun g h => ∃ hg hh,
      ((g.getLast hg).version == (h.head hh).version) = false) :
    gs.Pairwise fun g h => ∀ m ∈ g, ∀ n ∈ h, m.version < n.version := by
  induction gs with
  | nil => exact .nil
  | cons g rest ih =>
    rw [List.pairwise_cons] at hle ⊢
    refine ⟨?_, ih (fun k hk => hne k (.tail g hk)) (fun k hk => hin k (.tail g hk)) hle.2
      hborder.tail⟩
    cases rest with
    | nil => simp
    | cons h others =>
      obtain ⟨hg, hh, hdiff⟩ := (List.isChain_cons_cons.mp hborder).1
      -- all of this group are at most its last, which is below the first of the next group, which is at
      -- most all that follow
      have hlast : ∀ m ∈ g, m.version ≤ (g.getLast hg).version := by
        intro m hm
        rw [← List.dropLast_append_getLast hg] at hm
        rcases List.mem_append.mp hm with hm | hm
        · have hp := hin g (.head _)
          rw [← List.dropLast_append_getLast hg, List.pairwise_append] at hp
          exact hp.2.2 m hm _ (by simp)
        · rw [List.mem_singleton.mp hm]
      have hstep : (g.getLast hg).version < (h.head hh).version := by
        have := hle.1 h (.head _) _ (List.getLast_mem hg) _ (List.head_mem hh)
        simp only [beq_eq_false_iff_ne, ne_eq] at hdiff
        omega
      have hafter : ∀ k ∈ h :: others, ∀ n ∈ k, (h.head hh).version ≤ n.version := by
        intro k hk n hn
        rcases List.mem_cons.mp hk with rfl | hk
        · have hp := hin k (.tail g (.head _))
          rw [← List.cons_head_tail hh] at hn hp
          rcases List.mem_cons.mp hn with rfl | hn
          · simp
          · exact (List.pairwise_cons.mp hp).1 n hn
        · exact (List.pairwise_cons.mp hle.2).1 k hk _ (List.head_mem hh) n hn
      intro k hk m hm n hn
      have := hlast m hm
      have := hafter k hk n hn
      omega

/-- Migrations in order are cut into groups of one version with rising versions. -/
theorem InOrder.grouped {listed ms : List Migration} (h : InOrder listed ms) :
    Grouped ms (Blueprint.groups ms) := by
  have hflat : (Blueprint.groups ms).flatten = ms := List.flatten_splitBy _ ms
  have hle : (Blueprint.groups ms).flatten.Pairwise fun m n => m.version ≤ n.version := by
    rw [hflat]
    exact h.sorted.imp fun e => by omega
  rw [List.pairwise_flatten] at hle
  have hne : ∀ g ∈ Blueprint.groups ms, g ≠ [] := fun g hg => List.ne_nil_of_mem_splitBy hg
  exact
    { flatten := hflat
      nonempty := hne
      single := fun g hg => version_eq_of_isChain (List.isChain_of_mem_splitBy hg)
      ascending := ascending_of_borders hne hle.1 hle.2
        (List.isChain_getLast_head_splitBy (fun m n => m.version == n.version) ms) }

end Migration

namespace Blueprint

/-! ## Pending migrations -/

/-- What a blueprint finds pending in a directory is what the directory asks for, in order. -/
theorem pending_inOrder {b : Blueprint} {stored : Nat} {d : MigrationDirectory}
    {entries : List (DirectoryEntry × Option String)} (hd : d.entries = some entries) :
    ∃ ms, b.pending stored (some d) = .ok ms ∧
      Migration.InOrder (Migration.wanted stored b.version (entries.map Prod.fst)) ms := by
  refine ⟨(Migration.inOrder (entries.map Prod.fst)).filter (b.isPending stored),
    by simp only [pending, hd], ?_⟩
  have hwanted : Migration.wanted stored b.version (entries.map Prod.fst)
      = ((entries.map Prod.fst).filterMap Migration.ofEntry?).filter (b.isPending stored) := by
    rw [Migration.wanted, List.filterMap_filter]
    congr 1
    · funext m
      by_cases hk : m.kind = "sql" <;> simp [isPending, runnableKind, hk]
    · congr 1
      funext e
      cases h : e.isFile <;> simp [Migration.ofEntry?, h]
  rw [hwanted]
  exact (Migration.inOrder_mergeSort _).filter _

/-- In a directory that lists its migrations in order, they are pending as they are listed. -/
theorem pending_of_sorted {b : Blueprint} {stored : Nat} {d : MigrationDirectory}
    {entries : List (DirectoryEntry × Option String)} (hd : d.entries = some entries)
    (hsorted : ((entries.map Prod.fst).filterMap Migration.ofEntry?).Pairwise
      (Migration.le · · = true)) :
    b.pending stored (some d)
      = .ok (((entries.map Prod.fst).filterMap Migration.ofEntry?).filter (b.isPending stored)) := by
  simp only [pending, hd, Migration.inOrder, List.mergeSort_of_pairwise hsorted]

end Blueprint

end AccountHistory
