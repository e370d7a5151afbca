import AccountHistory.Proofs.MigrationOrder

/-!
# Listings of a directory

A directory lists its entries in an order of its own, and with others that are no migrations. How
much of this is seen in the migrations that are found:

* a list that is in order is fixed by what it holds of each version and time
  (`eq_of_sorted_of_ofPlace_eq`), so there is one way only to put migrations in order;
* two listings give the same migrations exactly when they list those of each version and time in the
  same order (`inOrder_eq_iff`). Where no two agree in both, this does not depend on the order.
-/

namespace AccountHistory

namespace Migration

variable {ms ms' : List Migration} {entries entries' : List DirectoryEntry} {m : Migration}

/-- The migrations of a version and a time. -/
def ofPlace (ms : List Migration) (v : Nat) (t : Int) : List Migration :=
  ms.filter fun m => m.version = v ∧ m.time = t

theorem mem_ofPlace_self : m ∈ ofPlace ms m.version m.time ↔ m ∈ ms := by
  simp [ofPlace]

theorem ofPlace_cons (m : Migration) (ms : List Migration) (v : Nat) (t : Int) :
    ofPlace (m :: ms) v t
      = (if m.version = v ∧ m.time = t then [m] else []) ++ ofPlace ms v t := by
  rw [ofPlace, List.filter_cons]
  by_cases hm : m.version = v ∧ m.time = t <;> simp [hm, ofPlace]

/-! ## Lists in order -/

/-- What is sorted by version and time is fixed by what there is of each. By induction on the first
list: the first migrations of both are of the least version and time, so they agree in these, and
each comes first among those. -/
theorem eq_of_sorted_of_ofPlace_eq (h : ms.Pairwise (le · · = true))
    (h' : ms'.Pairwise (le · · = true)) (hsame : ∀ v t, ofPlace ms v t = ofPlace ms' v t) :
    ms = ms' := by
  have hmem : ∀ m, m ∈ ms ↔ m ∈ ms' := by
    intro m
    rw [← mem_ofPlace_self, hsame, mem_ofPlace_self]
  induction ms generalizing ms' with
  | nil =>
    cases ms' with
    | nil => rfl
    | cons n ms' => exact absurd ((hmem n).mpr (.head ms')) List.not_mem_nil
  | cons m ms ih =>
    cases ms' with
    | nil => exact absurd ((hmem m).mp (.head ms)) List.not_mem_nil
    | cons n ms' =>
      obtain ⟨hm, hms⟩ := List.pairwise_cons.mp h
      obtain ⟨hn, hms'⟩ := List.pairwise_cons.mp h'
      have hle : le m n = true := by
        rcases List.mem_cons.mp ((hmem n).mpr (.head ms')) with rfl | hin
        · rw [le_iff]
          omega
        · exact hm n hin
      have hge : le n m = true := by
        rcases List.mem_cons.mp ((hmem m).mp (.head ms)) with rfl | hin
        · rw [le_iff]
          omega
        · exact hn m hin
      have hplace : n.version = m.version ∧ n.time = m.time := by
        rw [le_iff] at hle hge
        omega
      obtain rfl : m = n := by
        have hfirst := hsame m.version m.time
        rw [ofPlace_cons, ofPlace_cons, if_pos ⟨rfl, rfl⟩, if_pos hplace] at hfirst
        exact (List.cons.inj hfirst).1
      have hrest : ∀ v t, ofPlace ms v t = ofPlace ms' v t := by
        intro v t
        have := hsame v t
        rw [ofPlace_cons, ofPlace_cons] at this
        exact List.append_cancel_left this
      refine congrArg (m :: ·) (ih hms hms' hrest fun k => ?_)
      rw [← mem_ofPlace_self, hrest, mem_ofPlace_self]

theorem sorted_inOrder (entries : List DirectoryEntry) :
    (inOrder entries).Pairwise (le · · = true) :=
  List.pairwise_mergeSort le_trans le_total _

theorem ofPlace_inOrder (entries : List DirectoryEntry) (v : Nat) (t : Int) :
    ofPlace (inOrder entries) v t = ofPlace (entries.filterMap ofEntry?) v t :=
  filter_mergeSort _ v t

/-- Two listings give the same migrations exactly when they list those of each version and time in
the same order. -/
theorem inOrder_eq_iff : inOrder entries = inOrder entries' ↔
    ∀ v t, ofPlace (entries.filterMap ofEntry?) v t = ofPlace (entries'.filterMap ofEntry?) v t := by
  constructor
  · intro h v t
    rw [← ofPlace_inOrder, h, ofPlace_inOrder]
  · intro h
    apply eq_of_sorted_of_ofPlace_eq (sorted_inOrder entries) (sorted_inOrder entries')
    intro v t
    rw [ofPlace_inOrder, h, ofPlace_inOrder]

/-! ## Other listings -/

/-- No two migrations agree in version and time. -/
def AllApart (ms : List Migration) : Prop :=
  ms.Pairwise fun m n => ¬(m.version = n.version ∧ m.time = n.time)

/-- Of a version and a time there is at most one. -/
theorem AllApart.length_ofPlace_le (h : AllApart ms) (v : Nat) (t : Int) :
    (ofPlace ms v t).length ≤ 1 := by
  have hapart : AllApart (ofPlace ms v t) := h.filter _
  have hall : ∀ m ∈ ofPlace ms v t, m.version = v ∧ m.time = t := by
    intro m hm
    simpa using (List.mem_filter.mp hm).2
  match hplace : ofPlace ms v t with
  | [] => simp
  | [_] => simp
  | m :: n :: rest =>
    rw [hplace] at hapart hall
    have hm := hall m (by simp)
    have hn := hall n (by simp)
    have := (List.pairwise_cons.mp hapart).1 n (by simp)
    omega

/-- The migrations of a version and a time are the same in any order, if there is at most one. -/
theorem AllApart.ofPlace_eq (h : AllApart ms) (hperm : ms'.Perm ms) (v : Nat) (t : Int) :
    ofPlace ms' v t = ofPlace ms v t := by
  have hplace : (ofPlace ms' v t).Perm (ofPlace ms v t) := hperm.filter _
  have hlength := h.length_ofPlace_le v t
  match hof : ofPlace ms v t with
  | [] =>
    rw [hof] at hplace
    exact hplace.eq_nil
  | [m] =>
    rw [hof] at hplace
    exact hplace.eq_singleton
  | _ :: _ :: _ =>
    rw [hof] at hlength
    simp at hlength

/-- The second listing is the first one with entries put in anywhere that are no migrations. -/
inductive Padded : List DirectoryEntry → List DirectoryEntry → Prop
  /-- nothing is listed -/
  | nil : Padded [] []
  /-- an entry of both -/
  | keep {entries entries' : List DirectoryEntry} (e : DirectoryEntry)
    (h : Padded entries entries') : Padded (e :: entries) (e :: entries')
  /-- an entry that is put in -/
  | pad {entries entries' : List DirectoryEntry} (e : DirectoryEntry) (he : ofEntry? e = none)
    (h : Padded entries entries') : Padded entries (e :: entries')

theorem Padded.filterMap_eq (h : Padded entries entries') :
    entries'.filterMap ofEntry? = entries.filterMap ofEntry? := by
  induction h with
  | nil => rfl
  | keep e _ ih => rw [List.filterMap_cons, List.filterMap_cons, ih]
  | pad e he _ ih => rw [List.filterMap_cons_none he, ih]

/-- **Listings.** What is found in a directory is a stable sort of its migrations by version and
time. If no two of them agree in both, the order of the listing does not matter, and entries that
are no migrations never do. -/
theorem inOrder_listing (entries : List DirectoryEntry) :
    InOrder (entries.filterMap ofEntry?) (inOrder entries) ∧
    (AllApart (entries.filterMap ofEntry?) →
      ∀ entries', entries'.Perm entries → inOrder entries' = inOrder entries) ∧
    ∀ entries', Padded entries entries' → inOrder entries' = inOrder entries := by
  refine ⟨inOrder_mergeSort _, ?_, ?_⟩
  · intro hapart entries' hperm
    rw [inOrder_eq_iff]
    intro v t
    exact hapart.ofPlace_eq (hperm.filterMap ofEntry?) v t
  · intro entries' hpadded
    rw [inOrder, hpadded.filterMap_eq, inOrder]

/-- Two files are found in the order of their versions whichever is listed first, also with a third
one between them that is no migration. -/
theorem inOrder_listing_swapped :
    inOrder [⟨"migration.v1.sql", none, true⟩, ⟨"migration.v2.sql", none, true⟩]
        = [⟨"migration.v1.sql", 1, 0, "sql", none⟩, ⟨"migration.v2.sql", 2, 0, "sql", none⟩] ∧
      inOrder [⟨"migration.v2.sql", none, true⟩, ⟨"migration.v1.sql", none, true⟩]
        = inOrder [⟨"migration.v1.sql", none, true⟩, ⟨"migration.v2.sql", none, true⟩] ∧
      inOrder [⟨"migration.v1.sql", none, true⟩, ⟨"README.md", none, true⟩,
          ⟨"migration.v2.sql", none, true⟩]
        = inOrder [⟨"migration.v1.sql", none, true⟩, ⟨"migration.v2.sql", none, true⟩] := by
  obtain ⟨-, hperm, hpadded⟩ := inOrder_listing
    [⟨"migration.v1.sql", none, true⟩, ⟨"migration.v2.sql", none, true⟩]
  refine ⟨?_, hperm ?_ _ (.swap ..), hpadded _ (.keep _ (.pad _ (by decide) (.keep _ .nil)))⟩
  · have hfound : [(⟨"migration.v1.sql", none, true⟩ : DirectoryEntry),
        ⟨"migration.v2.sql", none, true⟩].filterMap ofEntry?
        = [⟨"migration.v1.sql", 1, 0, "sql", none⟩, ⟨"migration.v2.sql", 2, 0, "sql", none⟩] := by
      decide
    rw [inOrder, hfound, List.mergeSort_of_pairwise (by decide)]
  · unfold AllApart
    decide

end Migration

end AccountHistory
