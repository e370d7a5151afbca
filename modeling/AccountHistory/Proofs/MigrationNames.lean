import AccountHistory.Migration.File
import AccountHistory.Proofs.Numerals

/-!
# Names of migrations

Which entries of a directory are migrations, and which migrations they are:

* `Tells` is the form of a name: cut at every dot, it has three or four parts, of which the first is
  fixed and the second begins with a fixed letter;
* the version is a numeral of 32 bits without a minus sign, else the entry is passed over;
* `TellsTime` is the time: a numeral of 64 bits, else zero.

`Migration.ofEntry_spec` says that discovery accepts exactly these entries. The name made of a
version, a time and a kind is among them and gives the three back.
-/

namespace AccountHistory

namespace Migration

variable {name : String} {version kind : List Char} {time : Option (List Char)} {t : Int}
  {e : DirectoryEntry} {m : Migration}

/-! ## Parts of a name -/

theorem splitDots_eq_splitOn (cs : List Char) : splitDots cs = cs.splitOn '.' := by
  induction cs with
  | nil => rfl
  | cons c cs ih =>
    rw [splitDots, List.splitOn_cons_eq_if_modifyHead, ih]
    obtain ⟨part, parts, hparts⟩ := List.exists_cons_of_ne_nil (List.splitOn_ne_nil '.' cs)
    by_cases hc : c = '.'
    · simp [hc]
    · simp [hc, hparts]

/-- The name has the form of the name of a migration, with these parts between its dots. -/
structure Tells (name : String) (version : List Char) (time : Option (List Char))
    (kind : List Char) : Prop where
  /-- the parts, where that of the time may be missing -/
  parts : name.toList.splitOn '.'
    = ["migration".toList, 'v' :: version] ++ time.toList ++ [kind]
  /-- something stands behind the letter -/
  version_ne_nil : version ≠ []
  /-- the part of the time is not empty -/
  time_ne_nil : ∀ cs ∈ time, cs ≠ []
  /-- nor is the last part -/
  kind_ne_nil : kind ≠ []

theorem nameParts?_eq_some_iff :
    nameParts? name = some (version, time, kind) ↔ Tells name version time kind := by
  have hfirst : "migration".toList = firstPart := by decide
  rw [nameParts?, splitDots_eq_splitOn]
  constructor
  · intro h
    split at h
    case h_1 first version' kind' hparts =>
      split at h
      · next hform =>
        obtain ⟨rfl, hversion, hkind⟩ := hform
        simp only [Option.some.injEq, Prod.mk.injEq] at h
        obtain ⟨rfl, rfl, rfl⟩ := h
        exact ⟨by rw [hparts, hfirst]; rfl, hversion, by simp, hkind⟩
      · cases h
    case h_2 first version' time' kind' hparts =>
      split at h
      · next hform =>
        obtain ⟨rfl, hversion, htime, hkind⟩ := hform
        simp only [Option.some.injEq, Prod.mk.injEq] at h
        obtain ⟨rfl, rfl, rfl⟩ := h
        exact ⟨by rw [hparts, hfirst]; rfl, hversion, by simpa using htime, hkind⟩
      · cases h
    case h_3 => cases h
  · rintro ⟨hparts, hversion, htime, hkind⟩
    cases time with
    | none => simp [hparts, hfirst, hversion, hkind]
    | some cs => simp [hparts, hfirst, hversion, htime cs rfl, hkind]

/-! ## Times -/

/-- A part of a name, if there is one, tells the time `t`. -/
inductive TellsTime : Option (List Char) → Int → Prop
  /-- it is a numeral -/
  | numeral {cs : List Char} {t : Int} (h : Width.int64.Numeral cs t) : TellsTime (some cs) t
  /-- it is no numeral -/
  | other {cs : List Char} (h : ∀ t, ¬Width.int64.Numeral cs t) : TellsTime (some cs) 0
  /-- there is none -/
  | absent : TellsTime none 0

theorem tellsTime_iff : TellsTime time t ↔ timeOf time = t := by
  have hread (cs : List Char) (n : Int) : Width.int64.readChars cs = .ok n ↔ _ :=
    Width.readChars_eq_ok_iff (by decide) (by decide)
  constructor
  · intro h
    cases h with
    | numeral h => rw [timeOf, (hread _ _).mpr h]; rfl
    | @other cs h =>
      cases hcs : Width.int64.readChars cs with
      | ok n => exact absurd ((hread cs n).mp hcs) (h n)
      | error f => rw [timeOf, hcs]; rfl
    | absent => rfl
  · rintro rfl
    cases time with
    | none => exact .absent
    | some cs =>
      cases hcs : Width.int64.readChars cs with
      | ok n =>
        rw [timeOf, hcs]
        exact .numeral ((hread cs n).mp hcs)
      | error f =>
        rw [timeOf, hcs]
        refine .other fun n hn => ?_
        rw [(hread cs n).mpr hn] at hcs
        cases hcs

/-! ## Entries -/

theorem word32_readChars_eq_ok_iff {cs : List Char} {n : Int} :
    Width.word32.readChars cs = .ok n ↔ Width.word32.Numeral cs n :=
  Width.readChars_eq_ok_iff (by decide) (by decide)

/-- An entry is a migration if it is a file with a name of the form and a version that is a
numeral; the name tells the rest. -/
theorem entry_eq_some_iff :
    ofEntry? e = some m ↔ e.isFile = true ∧ ∃ version time kind,
      Tells e.name version time kind ∧ Width.word32.Numeral version m.version ∧
        m = ⟨e.name, m.version, timeOf time, String.ofList kind, e.path⟩ := by
  unfold ofEntry?
  constructor
  · intro h
    split at h
    · cases h
    case isFalse hfile =>
      split at h
      · cases h
      case h_2 version time kind hparts =>
        split at h
        · cases h
        case h_2 v hv =>
          obtain rfl := Option.some.inj h
          have hnumeral := word32_readChars_eq_ok_iff.mp hv
          have hnonneg : 0 ≤ v := hnumeral.least_le
          refine ⟨by simpa using hfile, version, time, kind, nameParts?_eq_some_iff.mp hparts, ?_,
            rfl⟩
          rwa [Int.toNat_of_nonneg hnonneg]
  · rintro ⟨hfile, version, time, kind, htells, hnumeral, hm⟩
    rw [hfile, nameParts?_eq_some_iff.mpr htells, hm]
    simp [word32_readChars_eq_ok_iff.mpr hnumeral]

/-- An entry is some migration if its name has the form and a version that is a numeral. -/
theorem exists_entry_iff :
    (∃ m, ofEntry? e = some m) ↔ e.isFile = true ∧ ∃ version time kind n,
      Tells e.name version time kind ∧ Width.word32.Numeral version n := by
  constructor
  · rintro ⟨m, hm⟩
    obtain ⟨hfile, version, time, kind, htells, hnumeral, -⟩ := entry_eq_some_iff.mp hm
    exact ⟨hfile, version, time, kind, m.version, htells, hnumeral⟩
  · rintro ⟨hfile, version, time, kind, n, htells, hnumeral⟩
    have hnonneg : 0 ≤ n := hnumeral.least_le
    refine ⟨⟨e.name, n.toNat, timeOf time, String.ofList kind, e.path⟩,
      entry_eq_some_iff.mpr ⟨hfile, version, time, kind, htells, ?_, rfl⟩⟩
    rwa [Int.toNat_of_nonneg hnonneg]

/-! ## Names that are put together -/

/-- The parts of a name that is put together. -/
theorem tells_append {v t kind : String} (hv : v ≠ "") (ht : t ≠ "") (hkind : kind ≠ "")
    (hv' : '.' ∉ v.toList) (ht' : '.' ∉ t.toList) (hkind' : '.' ∉ kind.toList) :
    Tells ("migration.v" ++ v ++ "." ++ t ++ "." ++ kind) v.toList (some t.toList) kind.toList := by
  refine ⟨?_, by simpa using hv, by simpa using ht, by simpa using hkind⟩
  have hjoin : ("migration.v" ++ v ++ "." ++ t ++ "." ++ kind).toList
      = ['.'].intercalate ["migration".toList, 'v' :: v.toList, t.toList, kind.toList] := by
    simp [List.intercalate_cons_cons]
  have hfree : ∀ part ∈ ["migration".toList, 'v' :: v.toList, t.toList, kind.toList],
      '.' ∉ part := by
    simp [hv', ht', hkind']
  rw [hjoin, List.splitOn_intercalate '.' hfree (by simp)]
  rfl

/-- No dot stands in a numeral. -/
theorem dot_not_mem {w : Width} {cs : List Char} {n : Int} (h : w.Numeral cs n) : '.' ∉ cs := by
  intro hdot
  have := h.written.mem hdot
  simp [isDigit] at this

/-- The name that is made of a version, a time and a kind gives back these three. -/
theorem entry_of_name_eq {v : Nat} {kind : String} (hv : Width.word32.holds v = true)
    (ht : Width.int64.holds t = true) (hkind : kind ≠ "") (hkind' : '.' ∉ kind.toList)
    (hfile : e.isFile = true)
    (hname : e.name = "migration.v" ++ toString v ++ "." ++ toString t ++ "." ++ kind) :
    ofEntry? e = some ⟨e.name, v, t, kind, e.path⟩ := by
  rw [Width.holds_iff] at hv ht
  have hversion : Width.word32.Numeral (toString v).toList v :=
    ⟨.plain (isDecimal_toString v), hv.1, hv.2⟩
  have htime : Width.int64.Numeral (toString t).toList t := Width.numeral_toString ht.1 ht.2
  have htells : Tells e.name (toString v).toList (some (toString t).toList) kind.toList := by
    rw [hname]
    exact tells_append (by simp) (by simpa using htime.written.ne_nil) hkind
      (dot_not_mem hversion) (dot_not_mem htime) hkind'
  refine entry_eq_some_iff.mpr ⟨hfile, _, _, _, htells, hversion, ?_⟩
  rw [tellsTime_iff.mp (.numeral htime), String.ofList_toList]

/-- **Discovery.** An entry of a directory is a migration exactly when it is a regular file whose
name has the form and whose version is a numeral of 32 bits. The migration then has the version, the
time and the kind that the name tells, and the name and the place of the entry. In particular the
name that is made of a version, a time and a kind gives back these three. -/
theorem ofEntry_spec (e : DirectoryEntry) :
    (∀ m, ofEntry? e = some m ↔ e.isFile = true ∧ ∃ version time kind,
      Tells e.name version time kind ∧ Width.word32.Numeral version m.version ∧
        TellsTime time m.time ∧ m.kind = String.ofList kind ∧ m.name = e.name ∧
        m.path = e.path) ∧
    ((∃ m, ofEntry? e = some m) ↔ e.isFile = true ∧ ∃ version time kind n,
      Tells e.name version time kind ∧ Width.word32.Numeral version n) ∧
    ∀ (v : Nat) (t : Int) (kind : String), Width.word32.holds v = true →
      Width.int64.holds t = true → kind ≠ "" → '.' ∉ kind.toList → e.isFile = true →
      e.name = "migration.v" ++ toString v ++ "." ++ toString t ++ "." ++ kind →
        ofEntry? e = some ⟨e.name, v, t, kind, e.path⟩ := by
  refine ⟨?_, exists_entry_iff, fun v t kind => entry_of_name_eq⟩
  intro m
  rw [entry_eq_some_iff]
  refine and_congr_right fun _ => exists_congr fun version => exists_congr fun time =>
    exists_congr fun kind => and_congr_right fun _ => and_congr_right fun _ => ?_
  rw [tellsTime_iff]
  constructor
  · intro hm
    rw [hm]
    exact ⟨rfl, rfl, rfl, rfl⟩
  · rintro ⟨ht, hkind, hname, hpath⟩
    rw [ht, ← hkind, ← hname, ← hpath]

/-- A version may have a sign and leading zeros, a time that is no number is zero, and a time may be
negative. -/
theorem ofEntry_spec_signed :
    ofEntry? ⟨"migration.v+007.draft.sql", none, true⟩
        = some ⟨"migration.v+007.draft.sql", 7, 0, "sql", none⟩ ∧
      ofEntry? ⟨"migration.v3.-5.sql", none, true⟩
        = some ⟨"migration.v3.-5.sql", 3, -5, "sql", none⟩ := by
  constructor
  · have hversion : IsDecimal "007".toList 7 := ⟨by decide, by simp [isDigit], by decide⟩
    have htime : ∀ t, ¬Width.int64.Numeral "draft".toList t := by
      intro t h
      have := h.written.mem (c := 'd') (by decide)
      simp [isDigit] at this
    exact ((ofEntry_spec _).1 _).mpr ⟨rfl, "+007".toList, some "draft".toList, "sql".toList,
      ⟨by decide, by decide, by decide, by decide⟩, ⟨.plus hversion, by decide, by decide⟩,
      .other htime, rfl, rfl, rfl⟩
  · exact (ofEntry_spec _).2.2 3 (-5) "sql" (by decide) (by decide) (by decide) (by decide) rfl
      (by decide)

end Migration

end AccountHistory
