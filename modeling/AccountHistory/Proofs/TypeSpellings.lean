import AccountHistory.Proofs.ColumnNames

/-!
# Spellings of types

Which texts are taken for a type. A text is meant to spell a type if its words, with one space
between them, are the spelling of that type up to the case of ASCII letters. Texts are compared in
upper case, however, across the whole character set, where letters outside ASCII may turn into ASCII
letters: the dotless i becomes `I`, the others begin with `S` or `F`, and no spelling has either of
these.

* `Text.HasWords` says what the words of a text are, and `Text.hasWords_iff` that they are found;
* `SqlType.Spells` is the meant reading, `Text.dotted` a text whose dotless letters have got dots;
* `SqlType.parses_spellings`: a text is taken for a type if and only if it spells that type once its
  dotless letters have got dots.
-/

namespace AccountHistory

/-! ## Words -/

namespace Text

/-- The characters are these words in order, with blanks around them and at least one between two of
them. -/
inductive HasWords : List Char → List (List Char) → Prop where
  /-- nothing has no words -/
  | nil : HasWords [] []
  /-- a blank in front is part of no word -/
  | blank {c : Char} {cs : List Char} {ws : List (List Char)} (hc : isBlank c = true)
      (h : HasWords cs ws) : HasWords (c :: cs) ws
  /-- a word in front goes on until a blank or the end -/
  | word {w rest : List Char} {ws : List (List Char)} (hne : w ≠ [])
      (hw : ∀ c ∈ w, isBlank c = false) (hend : ∀ c ∈ rest.head?, isBlank c = true)
      (h : HasWords rest ws) : HasWords (w ++ rest) (w :: ws)

variable {c d : Char} {cs word rest : List Char} {ws : List (List Char)}

theorem wordsFrom_append (h : ∀ c ∈ word, isBlank c = false) (before : List Char) :
    wordsFrom before (word ++ rest) = wordsFrom (word.reverse ++ before) rest := by
  induction word generalizing before with
  | nil => rfl
  | cons c cs ih =>
    obtain ⟨hc, hcs⟩ := List.forall_mem_cons.mp h
    rw [List.cons_append, wordsFrom, if_neg (by simp [hc]), ih hcs]
    simp

/-- The current word ends at a blank or with the text. -/
theorem wordsFrom_of_end (hne : word ≠ []) (hend : ∀ c ∈ rest.head?, isBlank c = true) :
    wordsFrom word rest = word.reverse :: wordsFrom [] rest := by
  cases rest with
  | nil => simp [wordsFrom, hne]
  | cons c cs => simp [wordsFrom, hend c rfl, hne]

/-- The current word and what the rest holds are the words of both. -/
theorem hasWords_wordsFrom (h : ∀ c ∈ word, isBlank c = false) :
    HasWords (word.reverse ++ cs) (wordsFrom word cs) := by
  induction cs generalizing word with
  | nil =>
    rw [wordsFrom]
    split
    case isTrue hempty =>
      rw [List.isEmpty_iff.mp hempty]
      exact .nil
    case isFalse hne =>
      refine .word ?_ ?_ nofun .nil
      · simpa using hne
      · simpa using h
  | cons c cs ih =>
    rw [wordsFrom]
    split
    case isTrue hc =>
      have hrest : HasWords (c :: cs) (wordsFrom [] cs) :=
        .blank hc (ih (List.forall_mem_nil _))
      split
      case isTrue hempty =>
        rw [List.isEmpty_iff.mp hempty]
        exact hrest
      case isFalse hne =>
        refine .word ?_ ?_ ?_ hrest
        · simpa using hne
        · simpa using h
        · simpa using hc
    case isFalse hc =>
      have hlonger : ∀ d ∈ c :: word, isBlank d = false :=
        List.forall_mem_cons.mpr ⟨by simpa using hc, h⟩
      simpa using ih hlonger

/-- The words of characters are those that are read. -/
theorem hasWords_iff : HasWords cs ws ↔ wordsFrom [] cs = ws := by
  constructor
  · intro h
    induction h with
    | nil => rfl
    | blank hc h ih => simpa [wordsFrom, hc] using ih
    | word hne hw hend h ih =>
      rw [wordsFrom_append hw, List.append_nil, wordsFrom_of_end (by simpa using hne) hend, ih,
        List.reverse_reverse]
  · rintro rfl
    exact hasWords_wordsFrom (List.forall_mem_nil _)

/-- The words of a text, as texts. -/
theorem hasWords_toList_iff {s : String} {ws : List String} :
    HasWords s.toList (ws.map String.toList) ↔ words s = ws := by
  have hinj : Function.Injective (List.map String.toList) :=
    List.map_injective_iff.mpr fun _ _ => String.toList_inj.mp
  rw [hasWords_iff, words, ← hinj.eq_iff, List.map_map]
  simp [Function.comp_def]

/-- Whatever is not blank is in some word. -/
theorem HasWords.exists_mem (h : HasWords cs ws) (hc : isBlank c = false) (hmem : c ∈ cs) :
    ∃ w ∈ ws, c ∈ w := by
  induction h with
  | nil => cases hmem
  | blank hblank h ih =>
    rcases List.mem_cons.mp hmem with rfl | hmem
    · rw [hblank] at hc
      cases hc
    · exact ih hmem
  | word hne hw hend h ih =>
    rcases List.mem_append.mp hmem with hmem | hmem
    · exact ⟨_, List.mem_cons_self, hmem⟩
    · obtain ⟨w, hw, hmem⟩ := ih hmem
      exact ⟨w, List.mem_cons_of_mem _ hw, hmem⟩

theorem mem_intercalate {w : String} {ws : List String} (hw : w ∈ ws) (hc : c ∈ w.toList) :
    c ∈ (" ".intercalate ws).toList := by
  induction ws with
  | nil => cases hw
  | cons v rest ih =>
    cases rest with
    | nil =>
      obtain rfl := List.mem_singleton.mp hw
      simpa [String.intercalate_singleton] using hc
    | cons u rest =>
      rw [String.intercalate_cons_cons, String.toList_append, List.mem_append]
      rcases List.mem_cons.mp hw with rfl | hw
      · exact .inl (by simp [hc])
      · exact .inr (ih hw)

/-! ## Dotless letters -/

/-- The dotless small i, which is outside ASCII and has the capital of the i. -/
def dotlessI : Char := Char.ofNat 0x131

/-- The character, with a dot if it is a dotless i. -/
def dot (c : Char) : Char :=
  if c = dotlessI then 'i' else c

/-- The text, with dots on its dotless letters. -/
def dotted (s : String) : String :=
  String.ofList (s.toList.map dot)

theorem isBlank_dot (c : Char) : isBlank (dot c) = isBlank c := by
  rw [dot]
  split
  case isTrue h =>
    rw [h]
    decide
  case isFalse => rfl

theorem dotted_eq_self {s : String} (h : dotlessI ∉ s.toList) : dotted s = s := by
  have hdot : ∀ c ∈ s.toList, dot c = c := by
    intro c hc
    exact if_neg (by rintro rfl; exact h hc)
  rw [dotted, List.map_congr_left hdot, List.map_id', String.ofList_toList]

theorem wordsFrom_dot (word cs : List Char) :
    wordsFrom (word.map dot) (cs.map dot) = (wordsFrom word cs).map (List.map dot) := by
  induction cs generalizing word with
  | nil => cases word <;> simp [wordsFrom]
  | cons c cs ih =>
    simp only [List.map_cons, wordsFrom, isBlank_dot, List.isEmpty_map]
    split
    · split
      · exact ih []
      · rw [← List.map_nil (f := dot), ih []]
        simp
    · exact ih (c :: word)

/-- Dots change no blanks, so they go to the words. -/
theorem words_dotted (s : String) : words (dotted s) = (words s).map dotted := by
  have hwords : wordsFrom [] (s.toList.map dot) = _ := wordsFrom_dot [] s.toList
  rw [words, dotted, String.toList_ofList, hwords, words, List.map_map, List.map_map]
  refine List.map_congr_left fun w _ => ?_
  simp [dotted]

theorem dotted_append (s t : String) : dotted (s ++ t) = dotted s ++ dotted t := by
  rw [dotted, String.toList_append, List.map_append, String.ofList_append, dotted, dotted]

theorem dotted_intercalate (ws : List String) :
    dotted (" ".intercalate ws) = " ".intercalate (ws.map dotted) := by
  induction ws with
  | nil => rfl
  | cons w rest ih =>
    cases rest with
    | nil => simp [String.intercalate_singleton]
    | cons v rest =>
      have hspace : dotted " " = " " := by decide
      rw [String.intercalate_cons_cons, dotted_append, dotted_append, hspace, ih]
      simp only [List.map_cons, String.intercalate_cons_cons]

/-! ## Letter case -/

theorem toNat_ofNat {n : Nat} (h : n < 128) : (Char.ofNat n).toNat = n := by
  have hvalid : n.isValidChar := .inl (by omega)
  rw [Char.ofNat, dif_pos hvalid]
  rfl

theorem toNat_capital (c : Char) : (capital c).toNat
    = if 97 ≤ c.toNat ∧ c.toNat ≤ 122 then c.toNat - 32 else c.toNat := by
  rw [capital]
  split
  case isTrue h =>
    have h : 97 ≤ c.toNat ∧ c.toNat ≤ 122 := h
    rw [if_pos h, toNat_ofNat (by omega)]
  case isFalse h => exact (if_neg h).symm

theorem toNat_small (c : Char) : (small c).toNat
    = if 65 ≤ c.toNat ∧ c.toNat ≤ 90 then c.toNat + 32 else c.toNat := by
  rw [small]
  split
  case isTrue h =>
    have h : 65 ≤ c.toNat ∧ c.toNat ≤ 90 := h
    rw [if_pos h, toNat_ofNat (by omega)]
  case isFalse h => exact (if_neg h).symm

/-- Only characters of ASCII become such characters. -/
theorem toNat_small_lt_iff : (small c).toNat < 128 ↔ c.toNat < 128 := by
  rw [toNat_small]
  split <;> omega

/-- The upper-case form of a character is the capital of the character with its dot; or it begins
with one of two letters, and the character is outside ASCII. -/
theorem upperChar_eq_or (c : Char) : upperChar c = [capital (dot c)] ∨
    127 < (dot c).toNat ∧ ∃ rest, upperChar c = 'S' :: rest ∨ upperChar c = 'F' :: rest := by
  by_cases hdotless : c = dotlessI
  · rw [hdotless]
    exact .inl (by decide)
  · rw [dot, if_neg hdotless, upperChar]
    split
    case h_2 h => exact absurd (Char.toNat_inj.mp h) hdotless
    case h_11 => exact .inl rfl
    all_goals exact .inr ⟨by omega, by simp⟩

/-- An ASCII character that is its own capital, and neither of the two letters that the upper-case
forms of foreign letters begin with. -/
def IsClear (d : Char) : Prop :=
  d.toNat < 128 ∧ capital d = d ∧ d ≠ 'S' ∧ d ≠ 'F'

instance (d : Char) : Decidable (IsClear d) :=
  inferInstanceAs (Decidable (_ ∧ _))

theorem capital_eq_iff (hd : capital d = d) : capital c = d ↔ small c = small d := by
  rw [← Char.toNat_inj, toNat_capital] at hd
  rw [← Char.toNat_inj, toNat_capital, ← Char.toNat_inj, toNat_small, toNat_small]
  split_ifs at hd ⊢ <;> omega

/-- Against clear characters, the upper-case forms agree exactly where the characters with their
dots agree up to the case of ASCII letters. -/
theorem flatMap_upperChar_eq_iff {ds : List Char} (h : ∀ d ∈ ds, IsClear d) :
    cs.flatMap upperChar = ds ↔ (cs.map dot).map small = ds.map small := by
  induction cs generalizing ds with
  | nil => simp [eq_comm]
  | cons c cs ih =>
    rw [List.flatMap_cons]
    cases ds with
    | nil =>
      rcases upperChar_eq_or c with hc | ⟨-, rest, hc | hc⟩ <;> simp [hc]
    | cons d ds =>
      obtain ⟨⟨hascii, hcapital, hS, hF⟩, hds⟩ := List.forall_mem_cons.mp h
      rcases upperChar_eq_or c with hc | ⟨hforeign, rest, hc⟩
      · rw [hc, List.singleton_append, List.cons.injEq, ih hds, capital_eq_iff hcapital]
        simp
      · -- the first letters differ on the left, and an ASCII letter meets a foreign one on the right
        refine iff_of_false ?_ ?_
        · rcases hc with hc | hc <;> simp [hc, hS.symm, hF.symm]
        · intro heq
          have hfirst : small (dot c) = small d := (List.cons.inj heq).1
          have hsmall := toNat_small_lt_iff.mpr hascii
          rw [← hfirst, toNat_small_lt_iff] at hsmall
          omega

end Text

open Text

namespace SqlType

variable {s : String} {t u : SqlType}

/-! ## The meant reading -/

/-- The words of the text, with one space between them, are the spelling of the type up to the case
of ASCII letters. -/
def Spells (s : String) (t : SqlType) : Prop :=
  ∃ ws : List String, HasWords s.toList (ws.map String.toList) ∧
    sameFold (" ".intercalate ws) t.spelling = true

theorem spells_iff : Spells s t ↔
    (" ".intercalate (words s)).toList.map small = t.spelling.toList.map small := by
  simp only [Spells, hasWords_toList_iff, exists_eq_left', sameFold, fold, beq_iff_eq,
    String.ofList_inj]

theorem isClear_of_mem_spelling (t : SqlType) : ∀ d ∈ t.spelling.toList, IsClear d := by
  have hall : t.spelling.toList.all (fun d => decide (IsClear d)) = true := by
    cases t <;> decide
  simpa using hall

theorem spelling_inj : t.spelling = u.spelling ↔ t = u := by
  have hall : ∀ t ∈ all, ∀ u ∈ all, t.spelling = u.spelling → t = u := by decide
  exact ⟨hall t (mem_all t) u (mem_all u), congrArg spelling⟩

/-- No text with a dotless letter spells a type. -/
theorem Spells.dotlessI_not_mem (h : Spells s t) : dotlessI ∉ s.toList := by
  intro hmem
  obtain ⟨w, hw, hmem⟩ := (hasWords_toList_iff.mpr rfl).exists_mem (by decide) hmem
  obtain ⟨v, hv, rfl⟩ := List.mem_map.mp hw
  have hsmall := List.mem_map_of_mem (f := small) (mem_intercalate hv hmem)
  rw [spells_iff.mp h] at hsmall
  obtain ⟨d, hd, hdotless⟩ := List.mem_map.mp hsmall
  have hascii := toNat_small_lt_iff.mpr (isClear_of_mem_spelling t d hd).1
  rw [hdotless] at hascii
  exact absurd hascii (by decide)

/-! ## What is parsed -/

/-- A text is taken for the type whose spelling is its normal form. -/
theorem parse?_eq_some_iff : parse? s = some t ↔ normalForm s = t.spelling := by
  constructor
  · intro h
    exact (spelling_of_parse? h).symm
  · intro h
    have hsome : (parse? s).isSome := by
      rw [parse?, List.find?_isSome]
      exact ⟨t, mem_all t, by simp [h]⟩
    obtain ⟨u, hu⟩ := Option.isSome_iff_exists.mp hsome
    rw [hu, spelling_inj.mp ((spelling_of_parse? hu).trans h)]

/-- The normal form of a text is a spelling where the text with its dots spells the type. -/
theorem normalForm_eq_iff : normalForm s = t.spelling ↔ Spells (dotted s) t := by
  rw [spells_iff, words_dotted, ← dotted_intercalate, dotted, String.toList_ofList,
    ← flatMap_upperChar_eq_iff (isClear_of_mem_spelling t), normalForm, upper, ← String.toList_inj,
    String.toList_ofList]

theorem parse_eq_ok_iff : parse s = .ok t ↔ Spells (dotted s) t := by
  rw [← normalForm_eq_iff, ← parse?_eq_some_iff, parse]
  cases parse? s <;> simp

theorem parse_eq_error_iff {e : Unknown} :
    parse s = .error e ↔ e = ⟨s⟩ ∧ ∀ t, ¬Spells (dotted s) t := by
  simp only [← normalForm_eq_iff, ← parse?_eq_some_iff, parse]
  cases parse? s <;> simp [eq_comm]

/-- The meant reading is the one without dotless letters. -/
theorem spells_iff_parse : Spells s t ↔ parse s = .ok t ∧ dotlessI ∉ s.toList := by
  rw [parse_eq_ok_iff]
  constructor
  · intro h
    have hdotless := h.dotlessI_not_mem
    rw [dotted_eq_self hdotless]
    exact ⟨h, hdotless⟩
  · rintro ⟨h, hdotless⟩
    rwa [dotted_eq_self hdotless] at h

end SqlType

/-- A column of an accepted definition has a value that spells its type, dotless letters aside. -/
theorem Definition.exists_spells {d : Definition} {options : ModelExtras} {m : Model}
    (h : d.define options = .ok m) {e : String × Declaration} (he : e ∈ d.entries)
    (hfree : isReservedName e.1 = false) :
    ∃ text t, e.2 = .scalar text ∧ SqlType.Spells (dotted text) t ∧ ⟨trim e.1, t⟩ ∈ m.columns := by
  obtain ⟨hshaped, hbuilt⟩ := define_eq_ok_iff.mp h
  obtain ⟨text, t, hvalue, htype⟩ := hshaped.columns e he hfree
  refine ⟨text, t, hvalue, ?_, ?_⟩
  · exact SqlType.normalForm_eq_iff.mp (SqlType.parse?_eq_some_iff.mp htype)
  · have hcolumn : ⟨e.1, t⟩ ∈ columnsOf d.entries := by
      refine List.mem_filterMap.mpr ⟨e, he, ?_⟩
      simp [hfree, hvalue, Declaration.type?, htype]
    rw [Draft.columns_eq hbuilt, built, Draft.ofParts_eq]
    exact Draft.mem_complete_of_mem (List.mem_map_of_mem (f := Column.trimmed) hcolumn) options

namespace SqlType

/-- **Spellings of types.** A text is taken for a type if and only if its words, with one space
between them, are the spelling of that type up to the case of ASCII letters, once every dotless i
has got its dot; any other text is refused as it stands. So the meant reading takes exactly the
texts that are taken and have no dotless i. Each type is read back from its spelling, and the
columns of an accepted definition are declared by texts that are taken so. -/
theorem parses_spellings (s : String) :
    (∀ t, parse s = .ok t ↔ Spells (dotted s) t) ∧
    (∀ e, parse s = .error e ↔ e = ⟨s⟩ ∧ ∀ t, ¬Spells (dotted s) t) ∧
    (∀ t, Spells s t ↔ parse s = .ok t ∧ dotlessI ∉ s.toList) ∧
    (∀ t : SqlType, parse t.spelling = .ok t) ∧
    ∀ (d : Definition) (options : ModelExtras) (m : Model), d.define options = .ok m →
      ∀ e ∈ d.entries, isReservedName e.1 = false →
        ∃ text t, e.2 = .scalar text ∧ Spells (dotted text) t ∧ ⟨trim e.1, t⟩ ∈ m.columns := by
  refine ⟨fun t => parse_eq_ok_iff, fun e => parse_eq_error_iff, fun t => spells_iff_parse, ?_, ?_⟩
  · intro t
    cases t <;> decide
  · intro d options m h e he hfree
    exact d.exists_spells h he hfree

/-- A large integer, spelled with dotless letters. -/
def dotlessBigint : String :=
  String.ofList ['b', dotlessI, 'g', dotlessI, 'n', 't']

/-- A definition whose only column has this type. -/
def dotlessDefinition : Definition := ⟨[("mts", .scalar dotlessBigint)]⟩

/-- The model of this definition. -/
def dotlessModel : Model := ⟨[⟨"_id", .idPrimaryKey⟩, ⟨"mts", .bigint⟩], [], [], [], []⟩

/-- The text is taken for a type and makes a column, though it spells no type. -/
theorem parses_spellings_dotless :
    parse dotlessBigint = .ok .bigint ∧ (∀ t, ¬Spells dotlessBigint t) ∧
      dotlessDefinition.define .standard = .ok dotlessModel ∧
      ∃ t, Spells (dotted dotlessBigint) t ∧ ⟨trim "mts", t⟩ ∈ dotlessModel.columns := by
  obtain ⟨-, -, hmeant, -, hcolumns⟩ := parses_spellings dotlessBigint
  have hdefine : dotlessDefinition.define .standard = .ok dotlessModel :=
    of_toOption (by decide)
  refine ⟨of_toOption (by decide), ?_, hdefine, ?_⟩
  · intro t ht
    exact ((hmeant t).mp ht).2 (by decide)
  · obtain ⟨text, t, hvalue, ht, hcolumn⟩ := hcolumns dotlessDefinition .standard dotlessModel
      hdefine ("mts", .scalar dotlessBigint) (by decide) (by decide)
    obtain rfl := Declaration.scalar.inj hvalue
    exact ⟨t, ht, hcolumn⟩

end SqlType

end AccountHistory
