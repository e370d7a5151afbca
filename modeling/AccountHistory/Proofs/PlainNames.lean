import AccountHistory.Proofs.Rows
import AccountHistory.Schema.Obedience

/-!
# Plain names in statements

A plain name stays plain behind the suffix under which a table is set aside, and is read as one word
wherever it stands between blanks. So a copy of no columns, whose text has empty brackets behind the
name of the table, is no statement.
-/

namespace AccountHistory

open Sql Store

/-! ## Names -/

/-- The end of the name under which a table is set aside, in small letters. -/
def asideSuffix : List Char := ['o', 'l', 'd']

theorem fold_oldName (table : String) :
    (Text.fold (Model.oldName table)).toList = (Text.fold table).toList ++ asideSuffix := by
  have hsuffix : "Old".toList.map Text.small = asideSuffix := by decide +kernel
  simp only [Model.oldName, Text.fold, String.toList_ofList, String.toList_append, List.map_append,
    hsuffix]

/-- A table that is set aside has a name of its own. -/
theorem sameFold_oldName (table : String) : Text.sameFold (Model.oldName table) table = false := by
  rw [Bool.eq_false_iff]
  intro hsame
  have hlength := congrArg (fun s => s.toList.length) (Text.sameFold_iff.mp hsame)
  simp [fold_oldName, asideSuffix] at hlength

/-- A plain name: a character that begins a name, then characters of names, and no keyword. -/
theorem isPlainName_iff {s : String} : isPlainName s = true ↔ ∃ c cs, s.toList = c :: cs ∧
    Token.isNameStart c = true ∧ cs.all Token.isNameChar = true ∧
    Text.fold s ∉ reservedWords ∧ Text.fold s ∉ wordsOfPlace := by
  rw [isPlainName]
  cases h : s.toList with
  | nil => simp
  | cons c cs => simp [isFreeWord, and_assoc]

theorem isPlainName_oldName {table : String} (h : isPlainName table = true) :
    isPlainName (Model.oldName table) = true := by
  obtain ⟨c, cs, hchars, hstart, hrest, -⟩ := isPlainName_iff.mp h
  have hchars' : (Model.oldName table).toList = c :: (cs ++ ['O', 'l', 'd']) := by
    rw [Model.oldName, String.toList_append, hchars]
    rfl
  -- no keyword ends like the name of a table that is set aside
  have hkeyword : ∀ w ∈ reservedWords ++ wordsOfPlace, asideSuffix.isSuffixOf w.toList = false := by
    decide +kernel
  have hfree : Text.fold (Model.oldName table) ∉ reservedWords ++ wordsOfPlace := by
    intro hmem
    have hsuffix : asideSuffix.isSuffixOf (Text.fold (Model.oldName table)).toList = true := by
      rw [fold_oldName, List.isSuffixOf_iff_suffix]
      exact List.suffix_append _ _
    rw [hkeyword _ hmem] at hsuffix
    cases hsuffix
  rw [List.mem_append, not_or] at hfree
  refine isPlainName_iff.mpr ⟨c, _, hchars', hstart, ?_, hfree.1, hfree.2⟩
  rw [List.all_append, hrest]
  decide +kernel

/-! ## Tokens -/

namespace Sql.Token

variable {c : Char} {cs rest : List Char} (fuel : Nat)

/-- A word is read up to a character of no name. -/
theorem readAll_word (hstart : isNameStart c = true) (hcs : cs.all isNameChar = true)
    (hrest : rest.head?.all (!isNameChar ·) = true) :
    readAll (fuel + 1) (c :: (cs ++ rest))
      = .word (String.ofList (c :: cs)) :: readAll fuel rest := by
  -- the word ends where the name does
  have hword : readOne c (cs ++ rest) = (.word (String.ofList (c :: cs)), rest) := by
    have hall : ∀ d ∈ cs, isNameChar d = true := List.all_eq_true.mp hcs
    have hend : rest.takeWhile isNameChar = [] ∧ rest.dropWhile isNameChar = rest := by
      cases rest with
      | nil => exact ⟨rfl, rfl⟩
      | cons d ds =>
        have hd : isNameChar d = false := by simpa using hrest
        simp [hd]
    rw [readOne, if_pos hstart, List.takeWhile_append_of_pos hall, List.dropWhile_append_of_pos hall,
      hend.1, hend.2, List.append_nil]
  -- a name begins neither a gap nor an order mark
  have hgap : isGapStart c = false := by
    rw [Bool.eq_false_iff]
    intro hgap
    simp only [isGapStart, Bool.or_eq_true, beq_iff_eq] at hgap
    rcases hgap with (((rfl | rfl) | rfl) | rfl) | rfl <;> cases hstart
  have horder : isOrderMark c = false := by
    rw [Bool.eq_false_iff]
    intro horder
    have hnat : c.toNat = 0xfeff := by simpa [isOrderMark] using horder
    have hc : c = Char.ofNat 0xfeff := by rw [← hnat, Char.ofNat_toNat]
    rw [hc] at hstart
    exact absurd hstart (by decide +kernel)
  rw [readAll.eq_def]
  dsimp only
  split
  case h_1 heq => cases heq
  case h_2 heq =>
    obtain ⟨rfl, -⟩ := List.cons.inj heq
    cases hstart
  case h_3 heq =>
    obtain ⟨rfl, -⟩ := List.cons.inj heq
    cases hstart
  case h_4 heq =>
    obtain ⟨rfl, rfl⟩ := List.cons.inj heq
    simp only [hgap, horder, hword, Bool.false_eq_true, if_false]

/-- A blank before no blank is dropped. -/
theorem readAll_blank (hrest : rest.head?.all (!Numeral.isBlank ·) = true) :
    readAll (fuel + 1) (' ' :: rest) = readAll fuel rest := by
  have hdrop : rest.dropWhile Numeral.isBlank = rest := by
    cases rest with
    | nil => rfl
    | cons d ds =>
      have hd : Numeral.isBlank d = false := by simpa using hrest
      simp [hd]
  rw [readAll.eq_def]
  simp [isGapStart, hdrop]

/-- A bracket is a mark by itself. -/
theorem readAll_bracket : readAll (fuel + 1) ('(' :: rest) = .mark "(" :: readAll fuel rest ∧
    readAll (fuel + 1) (')' :: rest) = .mark ")" :: readAll fuel rest := by
  have hdouble : ∀ c ∈ ['(', ')'], doubleMarks.contains (c :: rest.take 1) = false := by
    intro c hc
    simp only [List.mem_cons, List.not_mem_nil, or_false] at hc
    rcases hc with rfl | rfl <;> simp [doubleMarks]
  have hopen : readOne '(' rest = (.mark "(", rest) := by
    rw [readOne, hdouble '(' (by simp)]
    rfl
  have hclose : readOne ')' rest = (.mark ")", rest) := by
    rw [readOne, hdouble ')' (by simp)]
    rfl
  constructor
  · rw [readAll.eq_def]
    simp [isGapStart, isOrderMark, hopen]
  · rw [readAll.eq_def]
    simp [isGapStart, isOrderMark, hclose]

end Sql.Token

/-! ## A copy of no columns -/

theorem isBlank_of_isNameStart {c : Char} (h : Token.isNameStart c = true) :
    Numeral.isBlank c = false := by
  rw [Bool.eq_false_iff]
  intro hblank
  simp only [Numeral.isBlank, Bool.or_eq_true, beq_iff_eq, Bool.and_eq_true,
    decide_eq_true_eq] at hblank
  rcases hblank with rfl | ⟨hlow, hhigh⟩
  · cases h
  · have hlow' : 9 ≤ c.toNat := hlow
    have hhigh' : c.toNat ≤ 13 := hhigh
    have hc : c = Char.ofNat c.toNat := (Char.ofNat_toNat c).symm
    have hcases : c.toNat = 9 ∨ c.toNat = 10 ∨ c.toNat = 11 ∨ c.toNat = 12 ∨ c.toNat = 13 := by
      omega
    rcases hcases with hn | hn | hn | hn | hn <;>
      · rw [hn] at hc
        subst hc
        exact absurd h (by decide +kernel)

/-- The text of a copy of no columns, up to the brackets. -/
theorem toList_copy_nil {table : String} {c : Char} {cs : List Char} (h : table.toList = c :: cs)
    (source : String) : ∃ tail, (Statement.copy table source []).text.toList
      = 'I' :: (['N', 'S', 'E', 'R', 'T'] ++ ' ' :: 'I' :: (['N', 'T', 'O'] ++ ' ' :: c :: (cs ++
          ' ' :: '(' :: ')' :: tail))) := by
  have hinsert : "INSERT INTO ".toList
      = 'I' :: (['N', 'S', 'E', 'R', 'T'] ++ ' ' :: 'I' :: (['N', 'T', 'O'] ++ [' '])) := by
    decide +kernel
  have hopen : " (".toList = [' ', '('] := by decide +kernel
  have hclose : ") SELECT ".toList = ')' :: " SELECT ".toList := by decide +kernel
  have hempty : (", ".intercalate []).toList = [] := by decide +kernel
  have happend (s₁ s₂ s₃ s₄ s₅ s₆ s₇ s₈ : String) :
      (s₁ ++ s₂ ++ s₃ ++ s₄ ++ s₅ ++ s₆ ++ s₇ ++ s₈).toList
        = s₁.toList ++ (s₂.toList ++ (s₃.toList ++ (s₄.toList ++ (s₅.toList ++ (s₆.toList
          ++ (s₇.toList ++ s₈.toList)))))) := by
    simp only [String.toList_append, List.append_assoc]
  have htext : (Statement.copy table source []).text.toList = _ :=
    happend "INSERT INTO " table " (" (", ".intercalate []) ") SELECT " (", ".intercalate [])
      " FROM " source
  rw [hinsert, h, hopen, hclose, hempty] at htext
  exact ⟨_, htext⟩

/-- The words ahead in the text of a copy of no columns. -/
theorem ofText_copy_nil {table : String} (htable : isPlainName table = true) (source : String) :
    ∃ more, Token.ofText (Statement.copy table source []).text
      = .word "INSERT" :: .word "INTO" :: .word table :: .mark "(" :: .mark ")" :: more := by
  obtain ⟨c, cs, hchars, hstart, hrest, -⟩ := isPlainName_iff.mp htable
  have hblank := isBlank_of_isNameStart hstart
  obtain ⟨tail, htext⟩ := toList_copy_nil hchars source
  have hlength : ∃ fuel, (Statement.copy table source []).text.length + 1 = fuel + 8 := by
    refine ⟨(Statement.copy table source []).text.length - 7, ?_⟩
    have hchars := congrArg List.length htext
    rw [String.length_toList] at hchars
    simp only [List.length_cons, List.length_append] at hchars
    omega
  obtain ⟨fuel, hfuel⟩ := hlength
  have hname : String.ofList (c :: cs) = table := by rw [← hchars, String.ofList_toList]
  refine ⟨Token.readAll fuel tail, ?_⟩
  rw [Token.ofText, hfuel, htext, Token.readAll_word _ (by decide) (by decide) (by rfl),
    Token.readAll_blank _ (by rfl), Token.readAll_word _ (by decide) (by decide) (by rfl),
    Token.readAll_blank _ (by simp [hblank]), Token.readAll_word _ hstart hrest (by rfl),
    Token.readAll_blank _ (by rfl), (Token.readAll_bracket _).1, (Token.readAll_bracket _).2, hname]

/-- A copy of no columns cannot be read. -/
theorem script_copy_nil {table : String} (htable : isPlainName table = true) (source : String) :
    (Statement.copy table source []).script = ⟨[], true⟩ := by
  obtain ⟨more, htokens⟩ := ofText_copy_nil htable source
  have hfree : isFreeWord table = true := by
    obtain ⟨-, -, -, -, -, hfree, -⟩ := isPlainName_iff.mp htable
    simpa [isFreeWord] using hfree
  have hfold : Text.fold "INSERT" = "insert" ∧ Text.fold "INTO" = "into" := by decide +kernel
  have hcommand : readCommand (.word "INSERT" :: .word "INTO" :: .word table :: .mark "("
      :: .mark ")" :: more) = none := by
    simp [readCommand, hfold, readKeyword, Token.isKeyword, readInsert, readTableName,
      readDottedName, readName, hfree, readMark, readInsertColumns, readList, readSeries]
  change Script.ofText (Statement.copy table source []).text = _
  rw [Script.ofText]
  split
  · rfl
  · rw [Script.ofTokens, htokens, Script.read.eq_def]
    simp [hcommand]

end AccountHistory
