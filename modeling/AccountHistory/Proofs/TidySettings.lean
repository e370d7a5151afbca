import AccountHistory.Proofs.Lists
import AccountHistory.Proofs.Outcomes
import AccountHistory.Settings.Settings

/-!
# Tidy settings

What tidying asks for, and what it leaves. Settings name methods and collections by hand, so several
names may be one once their blanks are gone:

* `firsts` are the entries under trimmed names, of each name the first, and `KeepsFirst` says the
  same without the order of going through them;
* `CeilingSetting.Means` says which ceiling is meant by what is written;
* `Settings.IsSound` says what is asked for, `Settings.tidied` is what is left, and
  `Settings.tidyReport` counts what was changed (`Settings.tidy_eq_ok_iff`).

Tidy settings are sound and stay as they are, so a second time nothing is changed. All their
ceilings are taken over by the limits that are made of them, and each method is paced as its first
entry says (`Settings.tidy_spec`).
-/

namespace AccountHistory

open Text

/-! ## First entries -/

/-- The entries under trimmed names, of each name that is not taken the first. -/
def firsts {α : Type} (taken : List String) : List (String × α) → List (String × α)
  | [] => []
  | (written, a) :: rest =>
    if trim written ∈ taken then firsts taken rest
    else (trim written, a) :: firsts (taken ++ [trim written]) rest

/-- The first entry whose trimmed name is `name` has the value `a`. -/
def IsFirst {α : Type} (entries : List (String × α)) (name : String) (a : α) : Prop :=
  ∃ front written back, entries = front ++ (written, a) :: back ∧ trim written = name ∧
    ∀ e ∈ front, trim e.1 ≠ name

section Firsts

variable {α : Type} {taken : List String} {written name : String} {a : α}
  {entries : List (String × α)}

theorem firsts_cons_of_mem (h : trim written ∈ taken) :
    firsts taken ((written, a) :: entries) = firsts taken entries := by
  rw [firsts, if_pos h]

theorem firsts_cons_of_not_mem (h : trim written ∉ taken) :
    firsts taken ((written, a) :: entries)
      = (trim written, a) :: firsts (taken ++ [trim written]) entries := by
  rw [firsts, if_neg h]

theorem length_firsts_le (taken : List String) (entries : List (String × α)) :
    (firsts taken entries).length ≤ entries.length := by
  induction entries generalizing taken with
  | nil => exact Nat.le_refl _
  | cons e rest ih =>
    obtain ⟨written, a⟩ := e
    by_cases h : trim written ∈ taken
    · rw [firsts_cons_of_mem h, List.length_cons]
      exact Nat.le_succ_of_le (ih taken)
    · rw [firsts_cons_of_not_mem h, List.length_cons, List.length_cons]
      exact Nat.succ_le_succ (ih _)

/-- The names come in the order in which they come first. -/
theorem names_firsts (taken : List String) (entries : List (String × α)) :
    (firsts taken entries).map Prod.fst
      = ((entries.map fun e => trim e.1).filter (· ∉ taken)).eraseDups := by
  induction entries generalizing taken with
  | nil => rfl
  | cons e rest ih =>
    obtain ⟨written, a⟩ := e
    by_cases h : trim written ∈ taken
    · rw [firsts_cons_of_mem h, ih, List.map_cons, List.filter_cons_of_neg (by simpa using h)]
    · rw [firsts_cons_of_not_mem h, List.map_cons, ih, List.map_cons,
        List.filter_cons_of_pos (by simpa using h), List.eraseDups_cons, List.filter_filter]
      congr 3
      funext n
      by_cases hn : n = trim written <;> simp [hn]

theorem isFirst_cons {b : α} : IsFirst ((written, b) :: entries) name a ↔
    (trim written = name ∧ b = a) ∨ (trim written ≠ name ∧ IsFirst entries name a) := by
  constructor
  · rintro ⟨front, written', back, hsplit, hname, hfront⟩
    cases front with
    | nil =>
      obtain ⟨hentry, -⟩ := List.cons.inj hsplit
      obtain ⟨rfl, rfl⟩ := Prod.mk.inj hentry
      exact .inl ⟨hname, rfl⟩
    | cons e front =>
      obtain ⟨rfl, hrest⟩ := List.cons.inj hsplit
      obtain ⟨hne, hothers⟩ := List.forall_mem_cons.mp hfront
      exact .inr ⟨hne, front, written', back, hrest, hname, hothers⟩
  · rintro (⟨hname, rfl⟩ | ⟨hne, front, written', back, rfl, hname, hfront⟩)
    · exact ⟨[], written, entries, rfl, hname, by simp⟩
    · exact ⟨(written, b) :: front, written', back, rfl, hname,
        List.forall_mem_cons.mpr ⟨hne, hfront⟩⟩

/-- What is left of a name that is not taken is its first entry. -/
theorem mem_firsts_iff :
    (name, a) ∈ firsts taken entries ↔ name ∉ taken ∧ IsFirst entries name a := by
  induction entries generalizing taken with
  | nil => simp [firsts, IsFirst]
  | cons e rest ih =>
    obtain ⟨written, b⟩ := e
    rw [isFirst_cons]
    by_cases h : trim written ∈ taken
    · rw [firsts_cons_of_mem h, ih]
      refine and_congr_right fun hname => ?_
      have hne : trim written ≠ name := fun heq => hname (heq ▸ h)
      simp [hne]
    · rw [firsts_cons_of_not_mem h, List.mem_cons, ih, Prod.mk.injEq]
      by_cases heq : trim written = name
      · simp [← heq, h, eq_comm]
      · simp [heq, Ne.symm heq]

/-- Entries with trimmed names of which no two are the same are all first. -/
theorem firsts_eq_self (htrimmed : ∀ e ∈ entries, trim e.1 = e.1)
    (hnodup : (taken ++ entries.map Prod.fst).Nodup) : firsts taken entries = entries := by
  induction entries generalizing taken with
  | nil => rfl
  | cons e rest ih =>
    obtain ⟨written, a⟩ := e
    obtain ⟨hfirst, hrest⟩ := List.forall_mem_cons.mp htrimmed
    have hnew : trim written ∉ taken := by
      intro hmem
      rw [List.nodup_append] at hnodup
      exact hnodup.2.2 _ hmem written (by simp) hfirst
    rw [firsts_cons_of_not_mem hnew, ih hrest (by simpa [hfirst] using hnodup), hfirst]

theorem IsFirst.exists_mem (h : IsFirst entries name a) :
    ∃ written, (written, a) ∈ entries ∧ trim written = name := by
  obtain ⟨front, written, back, rfl, hname, -⟩ := h
  exact ⟨written, by simp, hname⟩

theorem IsFirst.unique {b : α} (h : IsFirst entries name a) (h' : IsFirst entries name b) :
    a = b := by
  induction entries with
  | nil =>
    obtain ⟨_, hmem, -⟩ := h.exists_mem
    cases hmem
  | cons e rest ih =>
    rcases isFirst_cons.mp h with ⟨hname, rfl⟩ | ⟨hname, hrest⟩
    · rcases isFirst_cons.mp h' with ⟨-, rfl⟩ | ⟨hname', -⟩
      · rfl
      · exact absurd hname hname'
    · rcases isFirst_cons.mp h' with ⟨hname', -⟩ | ⟨-, hrest'⟩
      · exact absurd hname' hname
      · exact ih hrest hrest'

end Firsts

/-- Of authored entries the first of each trimmed name is kept, in another form. -/
structure KeepsFirst {α : Type} (form : α → α) (authored kept : List (String × α)) : Prop where
  /-- the names come in the order in which they come first -/
  names : kept.map Prod.fst = (authored.map fun e => trim e.1).eraseDups
  /-- no two are the same -/
  nodup : (kept.map Prod.fst).Nodup
  /-- they have no blanks around them -/
  trimmed : ∀ k ∈ kept, trim k.1 = k.1
  /-- there is something to them -/
  named : ∀ k ∈ kept, k.1 ≠ ""
  /-- each has what its first entry says -/
  first : ∀ k ∈ kept, ∃ a, IsFirst authored k.1 a ∧ k.2 = form a

section KeepsFirst

variable {α : Type} {form : α → α} {authored kept : List (String × α)}

theorem keepsFirst_firsts (hnamed : ∀ e ∈ authored, trim e.1 ≠ "") :
    KeepsFirst form authored ((firsts [] authored).map fun e => (e.1, form e.2)) := by
  have hfirst : ∀ e ∈ firsts [] authored, IsFirst authored e.1 e.2 :=
    fun e he => (mem_firsts_iff.mp he).2
  have hnames : ((firsts [] authored).map fun e => (e.1, form e.2)).map Prod.fst
      = (authored.map fun e => trim e.1).eraseDups := by
    rw [List.map_map]
    exact (names_firsts [] authored).trans (by simp)
  refine ⟨hnames, hnames ▸ nodup_eraseDups _, ?_, ?_, ?_⟩
  all_goals
    intro k hk
    obtain ⟨e, he, rfl⟩ := List.mem_map.mp hk
    obtain ⟨written, hmem, hname⟩ := (hfirst e he).exists_mem
  · rw [← hname, trim_trim]
  · rw [← hname]
    exact hnamed (written, e.2) hmem
  · exact ⟨e.2, hfirst e he, rfl⟩

/-- What is kept is kept again. -/
theorem KeepsFirst.firsts_eq (h : KeepsFirst form authored kept) : firsts [] kept = kept :=
  firsts_eq_self h.trimmed h.nodup

end KeepsFirst

/-! ## Ceilings that mean something -/

namespace CeilingSetting

/-- What is written means a ceiling. -/
inductive Means : CeilingSetting → Ceiling → Prop
  /-- a count that allows a call and has 32 bits -/
  | count {n : Nat} (hpos : 0 < n) (hle : n ≤ 4294967295) : Means (.count n) (.limited n)
  /-- the word, in any case and with blanks around it -/
  | keyword {word : String} (h : lower (trim word) = unlimitedWord) :
    Means (.keyword word) .unlimited

/-- The tidy form, in which the word is written as it usually is. -/
def canonical : CeilingSetting → CeilingSetting
  | .count n => .count n
  | .keyword _ => .keyword unlimitedWord

variable {c c' : CeilingSetting} {k k' : Ceiling}

theorem canonical_canonical (c : CeilingSetting) : c.canonical.canonical = c.canonical := by
  cases c <;> rfl

theorem Means.canonical (h : c.Means k) : c.canonical.Means k := by
  cases h with
  | count hpos hle => exact .count hpos hle
  | keyword _ => exact .keyword (by decide)

/-- The tidy form is taken for the ceiling that is meant. -/
theorem Means.ceiling?_eq (h : c.Means k) : c.canonical.ceiling? = some k := by
  cases h with
  | count hpos hle =>
    have hfits : Width.word32.holds (Int.ofNat _) = true :=
      Width.holds_iff.mpr ⟨Int.natCast_nonneg _, Int.ofNat_le.mpr hle⟩
    exact if_pos ⟨Int.natCast_pos.mpr hpos, hfits⟩
  | keyword _ => rfl

theorem Means.unique (h : c.Means k) (h' : c.Means k') : k = k' := by
  have heq := h.ceiling?_eq.symm.trans h'.ceiling?_eq
  exact Option.some.inj heq

/-- A ceiling that is meant allows a call. -/
theorem Means.ne_zero (h : c.Means k) : k ≠ .limited 0 := by
  rintro rfl
  cases h with
  | count hpos _ => exact Nat.lt_irrefl 0 hpos

end CeilingSetting

namespace TidyReport

theorem renamed_eq (r : TidyReport) (before after : String) : r.renamed before after
    = { r with methodsRenamed := r.methodsRenamed + if before = after then 0 else 1 } := by
  rw [renamed]
  split <;> rfl

theorem reworded_eq (r : TidyReport) (before after : CeilingSetting) : r.reworded before after
    = { r with keywordsRewritten := r.keywordsRewritten + if before = after then 0 else 1 } := by
  rw [reworded]
  split <;> rfl

end TidyReport

namespace Settings

open CeilingSetting

variable {s s' : Settings} {r report : TidyReport} {taken : List String} {name written : String}

theorem tidyCeiling_eq_ok_iff {c c' : CeilingSetting} :
    tidyCeiling name c = .ok c' ↔ (∃ k, c.Means k) ∧ c' = c.canonical := by
  cases c with
  | count n =>
    have hmeans : (∃ k, (CeilingSetting.count n).Means k) ↔
        0 < n ∧ Width.word32.holds n = true := by
      rw [Width.holds_iff]
      constructor
      · rintro ⟨k, h⟩
        cases h with
        | count hpos hle => exact ⟨by omega, Int.natCast_nonneg _, Int.ofNat_le.mpr hle⟩
      · rintro ⟨hpos, -, hle⟩
        obtain ⟨m, rfl⟩ := Int.eq_ofNat_of_zero_le (Int.le_of_lt hpos)
        exact ⟨_, .count (by omega) (Int.ofNat_le.mp hle)⟩
    rw [hmeans, tidyCeiling]
    split
    case isTrue h => simp [h, canonical, eq_comm]
    case isFalse h => simp [h]
  | keyword word =>
    have hmeans : (∃ k, (CeilingSetting.keyword word).Means k) ↔
        lower (trim word) = unlimitedWord := by
      constructor
      · rintro ⟨k, h⟩
        cases h with
        | keyword h => exact h
      · intro h
        exact ⟨_, .keyword h⟩
    rw [hmeans, tidyCeiling]
    split
    case isTrue h => simp [h, canonical, eq_comm]
    case isFalse h => simp [h]

theorem isTaken_iff {α : Type} {kept : List (String × α)} :
    isTaken kept name = true ↔ name ∈ kept.map Prod.fst := by
  simp [isTaken]

/-! ## Tidying methods -/

/-- The entry of a method in its tidy form. -/
def tidyEntry (e : String × CeilingSetting) : String × CeilingSetting :=
  (e.1, e.2.canonical)

/-- The report on further methods: names that lose blanks, entries whose name is taken, and words
that are written otherwise. -/
def reportOn (report : TidyReport) (taken : List String)
    (entries : List (String × CeilingSetting)) : TidyReport where
  methodsRenamed := report.methodsRenamed + entries.countP fun e => e.1 ≠ trim e.1
  methodsDropped := report.methodsDropped + (entries.length - (firsts taken entries).length)
  keywordsRewritten :=
    report.keywordsRewritten + (firsts taken entries).countP fun e => e.2 ≠ e.2.canonical
  startsDropped := report.startsDropped

variable {c : CeilingSetting} {rest : List (String × CeilingSetting)}

theorem reportOn_cons_of_mem (h : trim written ∈ taken) :
    reportOn report taken ((written, c) :: rest)
      = reportOn { report.renamed written (trim written) with
          methodsDropped := (report.renamed written (trim written)).methodsDropped + 1 }
        taken rest := by
  have hle := length_firsts_le taken rest
  simp only [reportOn, firsts_cons_of_mem h, TidyReport.renamed_eq, List.countP_cons,
    List.length_cons, TidyReport.mk.injEq, decide_eq_true_eq, ne_eq, ite_not]
  refine ⟨by omega, by omega, trivial, trivial⟩

theorem reportOn_cons_of_not_mem (h : trim written ∉ taken) :
    reportOn report taken ((written, c) :: rest)
      = reportOn ((report.renamed written (trim written)).reworded c c.canonical)
        (taken ++ [trim written]) rest := by
  simp only [reportOn, firsts_cons_of_not_mem h, TidyReport.renamed_eq, TidyReport.reworded_eq,
    List.countP_cons, List.length_cons, TidyReport.mk.injEq, decide_eq_true_eq, ne_eq, ite_not]
  refine ⟨by omega, by omega, by omega, trivial⟩

/-- Methods are tidied if all have names and the first entry of each means a ceiling. By induction
on the entries: what is kept grows at its end, and with it the names that are taken. -/
theorem tidyMethods_eq_ok_iff {kept methods entries : List (String × CeilingSetting)} :
    tidyMethods kept report entries = .ok (methods, r) ↔
      (∀ e ∈ entries, trim e.1 ≠ "") ∧
      (∀ e ∈ firsts (kept.map Prod.fst) entries, ∃ k, e.2.Means k) ∧
      methods = kept ++ (firsts (kept.map Prod.fst) entries).map tidyEntry ∧
      r = reportOn report (kept.map Prod.fst) entries := by
  induction entries generalizing kept report with
  | nil =>
    constructor
    · intro h
      obtain ⟨rfl, rfl⟩ := Prod.mk.inj (Except.ok.inj h)
      simp [firsts, reportOn]
    · rintro ⟨-, -, rfl, rfl⟩
      simp [tidyMethods, firsts, reportOn]
  | cons e rest ih =>
    obtain ⟨written, c⟩ := e
    simp only [tidyMethods, List.forall_mem_cons]
    by_cases hname : trim written = ""
    · simp [hname]
    rw [if_neg hname]
    by_cases htaken : trim written ∈ kept.map Prod.fst
    · rw [if_pos (isTaken_iff.mpr htaken), ih, firsts_cons_of_mem htaken,
        reportOn_cons_of_mem htaken]
      simp only [hname, ne_eq, not_false_eq_true, true_and]
    · rw [if_neg (mt isTaken_iff.mp htaken), firsts_cons_of_not_mem htaken,
        reportOn_cons_of_not_mem htaken, List.forall_mem_cons, List.map_cons]
      split
      case h_1 error herror =>
        have hmeans : ¬∃ k, c.Means k := by
          intro hmeans
          rw [tidyCeiling_eq_ok_iff.mpr ⟨hmeans, rfl⟩] at herror
          cases herror
        simp [hmeans]
      case h_2 tidied hok =>
        obtain ⟨hmeans, rfl⟩ := tidyCeiling_eq_ok_iff.mp hok
        rw [ih, List.map_append]
        simp [hname, hmeans, tidyEntry]

/-! ## Tidying starts -/

/-- Starts are tidied if all have names and none is before all times. -/
theorem tidyStarts_eq_ok_iff {kept starts entries : List (String × Int)} :
    tidyStarts kept report entries = .ok (starts, r) ↔
      (∀ e ∈ entries, trim e.1 ≠ "" ∧ 0 ≤ e.2) ∧
      starts = kept ++ firsts (kept.map Prod.fst) entries ∧
      r = { report with startsDropped := report.startsDropped +
        (entries.length - (firsts (kept.map Prod.fst) entries).length) } := by
  induction entries generalizing kept report with
  | nil =>
    constructor
    · intro h
      obtain ⟨rfl, rfl⟩ := Prod.mk.inj (Except.ok.inj h)
      simp [firsts]
    · rintro ⟨-, rfl, rfl⟩
      simp [tidyStarts, firsts]
  | cons e rest ih =>
    obtain ⟨written, time⟩ := e
    simp only [tidyStarts, List.forall_mem_cons]
    by_cases hname : trim written = ""
    · simp [hname]
    by_cases htime : time < 0
    · simp [hname, htime, Int.not_le.mpr htime]
    rw [if_neg hname, if_neg htime]
    by_cases htaken : trim written ∈ kept.map Prod.fst
    · have hle := length_firsts_le (kept.map Prod.fst) rest
      have hcount : rest.length + 1 - (firsts (kept.map Prod.fst) rest).length
          = 1 + (rest.length - (firsts (kept.map Prod.fst) rest).length) := by omega
      rw [if_pos (isTaken_iff.mpr htaken), ih, firsts_cons_of_mem htaken, List.length_cons, hcount,
        ← Nat.add_assoc]
      simp only [hname, Int.not_lt.mp htime, ne_eq, not_false_eq_true, true_and]
    · rw [if_neg (mt isTaken_iff.mp htaken), firsts_cons_of_not_mem htaken, ih, List.map_append,
        List.length_cons, List.length_cons, Nat.add_sub_add_right]
      simp [hname, Int.not_lt.mp htime]

/-! ## Tidying all -/

/-- Settings of which nothing is refused. -/
structure IsSound (s : Settings) : Prop where
  /-- the period has a length -/
  period_pos : 0 < s.period
  /-- all methods have names -/
  methods_named : ∀ e ∈ s.methods, trim e.1 ≠ ""
  /-- the first ceiling of each method means something, whatever the others say -/
  methods_mean : ∀ e ∈ firsts [] s.methods, ∃ k, e.2.Means k
  /-- all starts have names, and none is before all times -/
  starts_sound : ∀ e ∈ s.starts, trim e.1 ≠ "" ∧ 0 ≤ e.2

/-- The settings in their tidy form. -/
def tidied (s : Settings) : Settings :=
  { s with
    methods := (firsts [] s.methods).map tidyEntry
    starts := firsts [] s.starts }

/-- What differs between the settings and their tidy form. -/
def tidyReport (s : Settings) : TidyReport :=
  { reportOn .unchanged [] s.methods with
    startsDropped := s.starts.length - (firsts [] s.starts).length }

/-- Sound settings are tidied, and no others. -/
theorem tidy_eq_ok_iff : s.tidy = .ok (s', r) ↔ s.IsSound ∧ s' = s.tidied ∧ r = s.tidyReport := by
  constructor
  · intro h
    obtain ⟨hperiod, h⟩ := of_guard h
    split at h
    case h_1 => cases h
    case h_2 methods report hmethods =>
      obtain ⟨hnamed, hmean, rfl, rfl⟩ := tidyMethods_eq_ok_iff.mp hmethods
      split at h
      case h_1 => cases h
      case h_2 starts report hstarts =>
        obtain ⟨hsound, rfl, rfl⟩ := tidyStarts_eq_ok_iff.mp hstarts
        obtain ⟨rfl, rfl⟩ := Prod.mk.inj (Except.ok.inj h)
        refine ⟨⟨Int.not_le.mp hperiod, hnamed, hmean, hsound⟩, rfl, ?_⟩
        simp [tidyReport, reportOn, TidyReport.unchanged]
  · rintro ⟨hsound, rfl, rfl⟩
    have hmethods : tidyMethods [] .unchanged s.methods
        = .ok ((firsts [] s.methods).map tidyEntry, reportOn .unchanged [] s.methods) :=
      tidyMethods_eq_ok_iff.mpr ⟨hsound.methods_named, hsound.methods_mean, rfl, rfl⟩
    have hstarts : tidyStarts [] (reportOn .unchanged [] s.methods) s.starts
        = .ok (firsts [] s.starts, s.tidyReport) :=
      tidyStarts_eq_ok_iff.mpr ⟨hsound.starts_sound, rfl, by
        simp [tidyReport, reportOn, TidyReport.unchanged]⟩
    rw [tidy, if_neg (Int.not_le.mpr hsound.period_pos)]
    simp only [hmethods, hstarts, tidied]

theorem keepsFirst_methods (h : s.IsSound) :
    KeepsFirst canonical s.methods s.tidied.methods :=
  keepsFirst_firsts h.methods_named

theorem keepsFirst_starts (h : s.IsSound) : KeepsFirst id s.starts s.tidied.starts := by
  have hkept : KeepsFirst id s.starts ((firsts [] s.starts).map fun e => (e.1, e.2)) :=
    keepsFirst_firsts fun e he => (h.starts_sound e he).1
  rwa [List.map_id'] at hkept

/-- No start that is kept is before all times. -/
theorem starts_tidied_nonneg (h : s.IsSound) : ∀ k ∈ s.tidied.starts, 0 ≤ k.2 := by
  intro k hk
  obtain ⟨written, hmem, -⟩ := (mem_firsts_iff.mp hk).2.exists_mem
  exact (h.starts_sound _ hmem).2

/-- Each entry is kept or counted as dropped. -/
theorem length_methods_tidied (s : Settings) :
    s.methods.length = s.tidied.methods.length + s.tidyReport.methodsDropped := by
  have hle := length_firsts_le [] s.methods
  simp only [tidied, tidyReport, reportOn, TidyReport.unchanged, List.length_map]
  omega

theorem length_starts_tidied (s : Settings) :
    s.starts.length = s.tidied.starts.length + s.tidyReport.startsDropped := by
  have hle := length_firsts_le [] s.starts
  simp only [tidied, tidyReport]
  omega

/-! ## Tidying again -/

/-- Tidy ceilings stay as they are. -/
theorem canonical_tidied {m : String × CeilingSetting} (h : m ∈ s.tidied.methods) :
    m.2.canonical = m.2 := by
  obtain ⟨e, -, rfl⟩ := List.mem_map.mp h
  exact canonical_canonical e.2

/-- A method that is left has a first entry, whose ceiling means something. -/
theorem exists_of_mem_tidied {m : String × CeilingSetting} (h : s.IsSound)
    (hm : m ∈ s.tidied.methods) :
    ∃ c k, IsFirst s.methods m.1 c ∧ c.Means k ∧ m.2 = c.canonical := by
  obtain ⟨e, he, rfl⟩ := List.mem_map.mp hm
  obtain ⟨k, hmeans⟩ := h.methods_mean e he
  exact ⟨e.2, k, (mem_firsts_iff.mp he).2, hmeans, rfl⟩

theorem IsSound.tidied (h : s.IsSound) : s.tidied.IsSound where
  period_pos := h.period_pos
  methods_named := by
    intro m hm
    rw [(keepsFirst_methods h).trimmed m hm]
    exact (keepsFirst_methods h).named m hm
  methods_mean := by
    rw [(keepsFirst_methods h).firsts_eq]
    intro m hm
    obtain ⟨c, k, -, hmeans, hform⟩ := exists_of_mem_tidied h hm
    exact ⟨k, hform ▸ hmeans.canonical⟩
  starts_sound := by
    intro k hk
    rw [(keepsFirst_starts h).trimmed k hk]
    exact ⟨(keepsFirst_starts h).named k hk, starts_tidied_nonneg h k hk⟩

theorem tidied_tidied (h : s.IsSound) : s.tidied.tidied = s.tidied := by
  have hentry : ∀ m ∈ s.tidied.methods, tidyEntry m = m := by
    intro m hm
    rw [tidyEntry, canonical_tidied hm]
  have hmethods : s.tidied.methods.map tidyEntry = s.tidied.methods :=
    (List.map_congr_left hentry).trans (List.map_id' _)
  rw [Settings.tidied.eq_def s.tidied, (keepsFirst_methods h).firsts_eq,
    (keepsFirst_starts h).firsts_eq, hmethods]

theorem tidyReport_tidied (h : s.IsSound) : s.tidied.tidyReport = .unchanged := by
  have hrenamed : s.tidied.methods.countP (fun m => m.1 ≠ trim m.1) = 0 := by
    rw [List.countP_eq_zero]
    intro m hm
    simp [(keepsFirst_methods h).trimmed m hm]
  have hreworded : s.tidied.methods.countP (fun m => m.2 ≠ m.2.canonical) = 0 := by
    rw [List.countP_eq_zero]
    intro m hm
    simp [canonical_tidied hm]
  simp only [tidyReport, reportOn, (keepsFirst_methods h).firsts_eq,
    (keepsFirst_starts h).firsts_eq, hrenamed, hreworded, TidyReport.unchanged, Nat.sub_self]

/-! ## Limits that are made of tidy settings -/

/-- No method is passed over if the ceilings of all mean something. -/
theorem map_ceilings (h : ∀ m ∈ s.methods, ∃ k, m.2.ceiling? = some k) :
    s.ceilings.map (fun k => (k.1, some k.2)) = s.methods.map fun m => (m.1, m.2.ceiling?) := by
  rw [ceilings, List.map_filterMap, ← List.filterMap_eq_map]
  refine List.filterMap_congr fun m hm => ?_
  obtain ⟨k, hk⟩ := h m hm
  simp [hk]

theorem ceiling?_tidied (h : s.IsSound) : ∀ m ∈ s.tidied.methods, ∃ k, m.2.ceiling? = some k := by
  intro m hm
  obtain ⟨c, k, -, hmeans, hform⟩ := exists_of_mem_tidied h hm
  exact ⟨k, hform ▸ hmeans.ceiling?_eq⟩

/-- The ceiling of a tidy method is what its first entry means. -/
theorem mem_ceilings_tidied_iff {k : Ceiling} (h : s.IsSound) :
    (name, k) ∈ s.tidied.ceilings ↔ ∃ c, IsFirst s.methods name c ∧ c.Means k := by
  simp only [ceilings, List.mem_filterMap, Option.map_eq_some_iff, Prod.mk.injEq]
  constructor
  · rintro ⟨m, hm, k', hceiling, rfl, rfl⟩
    obtain ⟨c, k, hfirst, hmeans, hform⟩ := exists_of_mem_tidied h hm
    rw [hform, hmeans.ceiling?_eq] at hceiling
    obtain rfl := Option.some.inj hceiling
    exact ⟨c, hfirst, hmeans⟩
  · rintro ⟨c, hfirst, hmeans⟩
    have he : (name, c) ∈ firsts [] s.methods := mem_firsts_iff.mpr ⟨by simp, hfirst⟩
    exact ⟨tidyEntry (name, c), List.mem_map_of_mem he, k, hmeans.ceiling?_eq, rfl, rfl⟩

/-- Nothing is wrong with the limits, and they pace each method as its first entry says. -/
theorem limits_tidied (h : s.IsSound) :
    ∃ limits, RateLimits.new s.tidied.period s.tidied.ceilings = .ok limits ∧
      ∀ name c, IsFirst s.methods name c → c.Means (limits.ceiling name) := by
  refine ⟨⟨s.period, s.tidied.ceilings, .unlimited, []⟩, ?_, ?_⟩
  · have hzero : RateLimits.zeroCeiling? s.tidied.ceilings = none := by
      rw [RateLimits.zeroCeiling?, Option.map_eq_none_iff, List.find?_eq_none]
      rintro ⟨name, k⟩ hmem
      obtain ⟨c, -, hmeans⟩ := (mem_ceilings_tidied_iff h).mp hmem
      simpa using hmeans.ne_zero
    rw [RateLimits.new, if_neg (Int.not_le.mpr h.tidied.period_pos), hzero]
    rfl
  · intro name c hfirst
    obtain ⟨k, hmeans⟩ := h.methods_mean (name, c) (mem_firsts_iff.mpr ⟨by simp, hfirst⟩)
    have hmem : (name, k) ∈ s.tidied.ceilings :=
      (mem_ceilings_tidied_iff h).mpr ⟨c, hfirst, hmeans⟩
    have hfind : (s.tidied.ceilings.find? fun m => m.1 == name) = some (name, k) := by
      refine find?_eq_of_unique hmem (by simp) ?_
      rintro ⟨name', k'⟩ hmem' hname
      obtain rfl : name' = name := by simpa using hname
      obtain ⟨c', hfirst', hmeans'⟩ := (mem_ceilings_tidied_iff h).mp hmem'
      obtain rfl := hfirst.unique hfirst'
      rw [hmeans'.unique hmeans]
    rw [RateLimits.ceiling, hfind]
    exact hmeans

/-- What tidying leaves: of each trimmed name the first entry, its ceiling in its tidy form, and no
start before all times. All other entries are counted as dropped, tidying again changes nothing, no
method is passed over, and the limits are made and pace each method as its first entry says. Which
settings are tidied, and into which, is in `tidy_eq_ok_iff`. -/
theorem tidy_spec (h : s.tidy = .ok (s', r)) :
    KeepsFirst canonical s.methods s'.methods ∧
    KeepsFirst id s.starts s'.starts ∧
    (∀ k ∈ s'.starts, 0 ≤ k.2) ∧
    s.methods.length = s'.methods.length + r.methodsDropped ∧
    s.starts.length = s'.starts.length + r.startsDropped ∧
    s'.tidy = .ok (s', .unchanged) ∧
    s'.ceilings.map (fun k => (k.1, some k.2)) = s'.methods.map (fun m => (m.1, m.2.ceiling?)) ∧
    ∃ limits, RateLimits.new s'.period s'.ceilings = .ok limits ∧
      ∀ name c, IsFirst s.methods name c → c.Means (limits.ceiling name) := by
  obtain ⟨hsound, rfl, rfl⟩ := tidy_eq_ok_iff.mp h
  refine ⟨keepsFirst_methods hsound, keepsFirst_starts hsound, starts_tidied_nonneg hsound,
    length_methods_tidied s, length_starts_tidied s, ?_, map_ceilings (ceiling?_tidied hsound),
    limits_tidied hsound⟩
  rw [tidy_eq_ok_iff]
  exact ⟨hsound.tidied, (tidied_tidied hsound).symm, (tidyReport_tidied hsound).symm⟩

/-- Settings in which two names are written twice, with blanks that differ. -/
def doubled : Settings where
  databaseUrl := none
  migrationsDir := none
  period := 30000
  methods := [(" getLedgers ", .count 90), ("getLedgers", .count 10),
    ("getCandles", .keyword " Unlimited ")]
  starts := [("candlesConf\t", 5), ("candlesConf", 7)]

/-- Both are left once, as they are written first, and the limits are those of the first entries. -/
theorem tidy_spec_doubled :
    doubled.tidy = .ok (doubled.tidied, ⟨1, 1, 1, 1⟩) ∧
    doubled.tidied.methods = [("getLedgers", .count 90), ("getCandles", .keyword "unlimited")] ∧
    doubled.tidied.starts = [("candlesConf", 5)] ∧
    doubled.tidied.tidy = .ok (doubled.tidied, .unchanged) ∧
    ∃ limits, RateLimits.new 30000 doubled.tidied.ceilings = .ok limits ∧
      (CeilingSetting.count 90).Means (limits.ceiling "getLedgers") := by
  have htidy : doubled.tidy = .ok (doubled.tidied, ⟨1, 1, 1, 1⟩) := by decide
  obtain ⟨-, -, -, -, -, hagain, -, limits, hlimits, hceiling⟩ := tidy_spec htidy
  refine ⟨htidy, by decide, by decide, hagain, limits, hlimits, hceiling _ _ ?_⟩
  exact ⟨[], " getLedgers ", _, rfl, by decide, by simp⟩

end Settings

end AccountHistory
