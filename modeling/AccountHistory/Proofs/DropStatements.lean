import AccountHistory.Proofs.RebuildPlan

/-!
# Statements that drop tables

A table is dropped by a statement that says its name as it is. If the name is a single word, the
statement drops the table of this name or cannot be read, as when the word is a keyword: it never
does anything else.

* `Token.ofText_words` reads words with blanks between them;
* `Statement.run_drop_cases` says what the statement does;
* `Database.Loses` says that a database loses the tables of some names with what belongs to them,
  and `Blueprint.loses_of_runAll` that statements leave such a database where references are not
  checked;
* `Blueprint.exists_runAll` says when they succeed.
-/

namespace AccountHistory

open Store Sql

/-! ## Words -/

namespace Sql

/-- The text is a single word: a character that begins a name, then characters of names. It may be a
keyword. -/
def IsWord (s : String) : Prop :=
  ∃ c cs, s.toList = c :: cs ∧ Token.isNameStart c = true ∧ cs.all Token.isNameChar = true

theorem isWord_of_isPlainName {s : String} (h : isPlainName s = true) : IsWord s := by
  obtain ⟨c, cs, hchars, hstart, hrest, -⟩ := isPlainName_iff.mp h
  exact ⟨c, cs, hchars, hstart, hrest⟩

namespace Token

variable {words : List String}

theorem readAll_nil (fuel : Nat) : readAll fuel [] = [] := by
  cases fuel <;> rfl

/-- What words make up with blanks between them begins with no blank. -/
theorem head?_words (h : ∀ w ∈ words, IsWord w) :
    (" ".intercalate words).toList.head?.all (!Numeral.isBlank ·) = true := by
  cases words with
  | nil => rfl
  | cons w rest =>
    obtain ⟨c, cs, hchars, hstart, -⟩ := h w List.mem_cons_self
    have hblank := isBlank_of_isNameStart hstart
    cases rest with
    | nil => simp [String.intercalate_singleton, hchars, hblank]
    | cons v rest =>
      simp [String.intercalate_cons_cons, String.toList_append, hchars, hblank]

theorem readAll_words (h : ∀ w ∈ words, IsWord w) :
    ∀ fuel, (" ".intercalate words).toList.length < fuel →
      readAll fuel (" ".intercalate words).toList = words.map .word := by
  induction words with
  | nil =>
    intro fuel _
    exact readAll_nil fuel
  | cons w rest ih =>
    obtain ⟨⟨c, cs, hchars, hstart, hcs⟩, hrest⟩ := List.forall_mem_cons.mp h
    have hword : String.ofList (c :: cs) = w := by rw [← hchars, String.ofList_toList]
    intro fuel hfuel
    obtain ⟨fuel, rfl⟩ : ∃ n, fuel = n + 1 := ⟨fuel - 1, by omega⟩
    cases rest with
    | nil =>
      have hread : readAll (fuel + 1) (c :: (cs ++ [])) = _ := readAll_word fuel hstart hcs rfl
      rw [List.append_nil, readAll_nil, hword] at hread
      rw [String.intercalate_singleton, hchars, hread]
      rfl
    | cons v rest =>
      -- the word, the blank behind it, and the others
      have htext : (" ".intercalate (w :: v :: rest)).toList
          = c :: (cs ++ ' ' :: (" ".intercalate (v :: rest)).toList) := by
        rw [String.intercalate_cons_cons, String.toList_append, String.toList_append, hchars]
        simp
      rw [htext] at hfuel ⊢
      simp only [List.length_cons, List.length_append] at hfuel
      obtain ⟨fuel, rfl⟩ : ∃ n, fuel = n + 1 := ⟨fuel - 1, by omega⟩
      rw [readAll_word _ hstart hcs rfl, readAll_blank _ (head?_words hrest), hword,
        ih hrest fuel (by omega)]
      rfl

/-- Words with blanks between them are read one by one. -/
theorem ofText_words (h : ∀ w ∈ words, IsWord w) :
    ofText (" ".intercalate words) = words.map .word :=
  readAll_words h _ (by rw [String.length_toList]; omega)

end Token

end Sql

/-! ## Reading -/

namespace Statement

variable {ifPresent : Bool} {name : String}

/-- The words that ask for a table only if it is there. -/
def presenceWords (ifPresent : Bool) : List String :=
  if ifPresent then ["IF", "EXISTS"] else []

theorem text_drop (ifPresent : Bool) (name : String) : (drop ifPresent name).text
    = " ".intercalate ("DROP" :: "TABLE" :: (presenceWords ifPresent ++ [name])) := by
  have hdrop : "DROP TABLE " = "DROP" ++ (" " ++ ("TABLE" ++ " ")) := by decide +kernel
  have hpresence : "IF EXISTS " = "IF" ++ (" " ++ ("EXISTS" ++ " ")) := by decide +kernel
  cases ifPresent with
  | false =>
    change "DROP TABLE " ++ "" ++ name = " ".intercalate ["DROP", "TABLE", name]
    rw [hdrop]
    simp only [String.intercalate_cons_cons, String.intercalate_singleton, String.append_assoc,
      String.empty_append]
  | true =>
    change "DROP TABLE " ++ "IF EXISTS " ++ name
      = " ".intercalate ["DROP", "TABLE", "IF", "EXISTS", name]
    rw [hdrop, hpresence]
    simp only [String.intercalate_cons_cons, String.intercalate_singleton, String.append_assoc]

/-- The tokens of the statement, if the name is a word. -/
theorem ofText_drop (h : IsWord name) : Token.ofText (drop ifPresent name).text
    = .word "DROP" :: .word "TABLE" :: ((presenceWords ifPresent).map .word ++ [.word name]) := by
  have hkeyword (w : String) (hw : w ∈ ["DROP", "TABLE", "IF", "EXISTS"]) : IsWord w := by
    simp only [List.mem_cons, List.not_mem_nil, or_false] at hw
    rcases hw with rfl | rfl | rfl | rfl <;>
      exact ⟨_, _, rfl, by decide, by decide +kernel⟩
  have hpresence : ∀ w ∈ presenceWords ifPresent, IsWord w := by
    intro w hw
    cases ifPresent with
    | false => cases hw
    | true => exact hkeyword w (.tail _ (.tail _ hw))
  have hwords : ∀ w ∈ "DROP" :: "TABLE" :: (presenceWords ifPresent ++ [name]), IsWord w := by
    intro w hw
    simp only [List.mem_cons, List.mem_append, List.not_mem_nil, or_false] at hw
    rcases hw with rfl | rfl | hw | rfl
    · exact hkeyword _ (by simp)
    · exact hkeyword _ (by simp)
    · exact hpresence w hw
    · exact h
  rw [text_drop ifPresent, Token.ofText_words hwords]
  simp

/-- What follows the keyword of dropping is read as the table, or not at all. -/
theorem readDrop_words (ifPresent : Bool) (name : String) :
    readDrop (.word "TABLE" :: ((presenceWords ifPresent).map .word ++ [.word name])) = none ∨
      readDrop (.word "TABLE" :: ((presenceWords ifPresent).map .word ++ [.word name]))
        = some (.dropTable ifPresent name, []) := by
  have hfold : Text.fold "TABLE" = "table" ∧ Text.fold "IF" = "if" ∧
      Text.fold "EXISTS" = "exists" := by
    decide +kernel
  have hname : readDottedName [.word name]
      = if isFreeWord name then some ((none, name), []) else none := by
    cases hfree : isFreeWord name <;> simp [readDottedName, readName, readMark, hfree]
  cases ifPresent with
  | false =>
    -- a name that is the word of the condition is not read
    cases hcondition : Text.fold name == "if" <;> cases hfree : isFreeWord name <;>
      simp [readDrop, readKeyword, readIf, readKeywords, Token.isKeyword, presenceWords, hfold,
        hname, hcondition, hfree]
  | true =>
    cases hfree : isFreeWord name <;>
      simp [readDrop, readKeyword, readIf, readKeywords, Token.isKeyword, presenceWords, hfold,
        hname, hfree]

/-- The statement says that the table is dropped, or it cannot be read. -/
theorem script_drop (ifPresent : Bool) (h : IsWord name) :
    (drop ifPresent name).script = ⟨[], true⟩ ∨
      (drop ifPresent name).script = ⟨[.dropTable ifPresent name], false⟩ := by
  have hfold : Text.fold "DROP" = "drop" := by decide +kernel
  rw [script, Script.ofText]
  split
  · exact .inl rfl
  · rw [Script.ofTokens, ofText_drop h, Script.read.eq_def]
    simp only [readCommand, hfold, reduceCtorEq, if_false]
    obtain hread | hread := readDrop_words ifPresent name
    · exact .inl (by rw [hread]; rfl)
    · exact .inr (by rw [hread]; rfl)

/-- The statement does what dropping the table does, or it fails. -/
theorem run_drop_cases (ifPresent : Bool) (h : IsWord name) (s : Session) :
    (∃ e, (drop ifPresent name).run s true = .error e) ∨
      (drop ifPresent name).run s true
        = (s.database.dropTable s.terms ifPresent name).map s.withDatabase := by
  rw [run, command?]
  split
  case h_1 c hcommand =>
    split at hcommand
    · obtain rfl := Option.some.inj hcommand
      exact .inr rfl
    · cases hcommand
  case h_2 =>
    obtain hscript | hscript := script_drop ifPresent h
    · exact .inl ⟨_, by rw [hscript]; rfl⟩
    · rw [hscript]
      simp only [Session.runScript, Session.obeyAll, Session.obey]
      cases (s.database.dropTable s.terms ifPresent name).map s.withDatabase with
      | error e => exact .inl ⟨e, rfl⟩
      | ok s' => exact .inr rfl

end Statement

/-! ## Databases that lose tables -/

namespace Store.Database

variable {db db' : Database} {name : String} {names : List String}

/-- Indexes and triggers belong to tables that are there. -/
structure IsOwned (db : Database) : Prop where
  /-- the indexes -/
  indexes : ∀ i ∈ db.indexes, (db.table? i.table).isSome = true
  /-- the triggers -/
  triggers : ∀ g ∈ db.triggers, (db.table? g.table).isSome = true

/-- The second database has the tables of the first whose names are not among those given, and
nothing that belongs to another one, under the same version. -/
structure Loses (names : List String) (db db' : Database) : Prop where
  /-- the tables -/
  tables : db'.tables = db.tables.filter fun t => !names.any (Text.sameFold t.name)
  /-- what belongs to them -/
  owned : db'.IsOwned
  /-- the version -/
  version : db'.version = db.version

theorem IsOwned.loses (h : db.IsOwned) : db.Loses [] db :=
  ⟨(List.filter_eq_self.mpr fun _ _ => rfl).symm, h, rfl⟩

theorem Loses.trans {db'' : Database} {more : List String} (h : db.Loses names db')
    (h' : db'.Loses more db'') : db.Loses (names ++ more) db'' where
  tables := by
    rw [h'.tables, h.tables, List.filter_filter]
    refine List.filter_congr fun t _ => ?_
    rw [List.any_append, Bool.not_or, Bool.and_comm]
  owned := h'.owned
  version := h'.version.trans h.version

theorem IsOwned.without (h : db.IsOwned) (name : String) : (db.without name).IsOwned where
  indexes i hi := by
    obtain ⟨hi, hne⟩ := List.mem_filter.mp hi
    rw [table?_without, if_neg (by simpa using hne)]
    exact h.indexes i hi
  triggers g hg := by
    obtain ⟨hg, hne⟩ := List.mem_filter.mp hg
    rw [table?_without, if_neg (by simpa using hne)]
    exact h.triggers g hg

/-- Where references are not checked, dropping a table takes away all that belongs to it, or there
is no such table. -/
theorem dropTable_cases {terms : Terms} {ifPresent : Bool} (hchecked : terms.checked = false)
    (h : db.dropTable terms ifPresent name = .ok db') :
    db' = db.without name ∨ db' = db ∧ db.table? name = none := by
  rw [dropTable] at h
  split at h
  case h_1 habsent =>
    obtain ⟨-, h⟩ := of_guard h
    split at h
    · exact .inr ⟨(Except.ok.inj h).symm, habsent⟩
    · cases h
  case h_2 =>
    simp only [hchecked, Bool.false_and, Bool.false_eq_true, if_false] at h
    exact .inl (Except.ok.inj h).symm

/-- The tables that are left. -/
theorem tables_of_dropTable {terms : Terms} {ifPresent : Bool} (hchecked : terms.checked = false)
    (h : db.dropTable terms ifPresent name = .ok db') :
    db'.tables = db.tables.filter fun t => !Text.sameFold t.name name := by
  obtain rfl | ⟨rfl, habsent⟩ := dropTable_cases hchecked h
  · rfl
  · refine (List.filter_eq_self.mpr fun t ht => ?_).symm
    simpa using List.find?_eq_none.mp habsent t ht

/-- A table that is dropped goes with what belongs to it, and nothing else does. -/
theorem loses_of_dropTable {terms : Terms} {ifPresent : Bool} (hchecked : terms.checked = false)
    (hdb : db.IsOwned) (h : db.dropTable terms ifPresent name = .ok db') :
    db.Loses [name] db' := by
  have htables : db'.tables = db.tables.filter fun t => !([name].any (Text.sameFold t.name)) := by
    simpa using tables_of_dropTable hchecked h
  obtain rfl | ⟨rfl, -⟩ := dropTable_cases hchecked h
  · exact ⟨htables, hdb.without name, rfl⟩
  · exact ⟨htables, hdb, rfl⟩

/-- A database that loses all its tables has no indexes and no triggers either. -/
theorem Loses.eq_empty (h : db.Loses names db')
    (hall : ∀ t ∈ db.tables, names.any (Text.sameFold t.name) = true) :
    db'.tables = [] ∧ db'.indexes = [] ∧ db'.triggers = [] := by
  have htables : db'.tables = [] := by
    rw [h.tables, List.filter_eq_nil_iff]
    intro t ht
    simp [hall t ht]
  have hnone (n : String) : db'.table? n = none := by rw [table?, htables, List.find?_nil]
  refine ⟨htables, List.eq_nil_iff_forall_not_mem.mpr fun i hi => ?_,
    List.eq_nil_iff_forall_not_mem.mpr fun g hg => ?_⟩
  · have howner := h.owned.indexes i hi
    rw [hnone] at howner
    cases howner
  · have howner := h.owned.triggers g hg
    rw [hnone] at howner
    cases howner

/-! ## Dropping many tables -/

/-- Drops tables one after the other. -/
def dropTables (db : Database) (terms : Terms) (ifPresent : Bool) (names : List String) :
    Except Fault Database :=
  names.foldlM (fun db n => db.dropTable terms ifPresent n) db

variable {terms : Terms} {ifPresent : Bool}

theorem tables_of_dropTables (hchecked : terms.checked = false)
    (h : db.dropTables terms ifPresent names = .ok db') :
    db'.tables = db.tables.filter fun t => !names.any (Text.sameFold t.name) := by
  induction names generalizing db with
  | nil =>
    obtain rfl := Except.ok.inj h
    exact (List.filter_eq_self.mpr fun _ _ => rfl).symm
  | cons n rest ih =>
    rw [dropTables, List.foldlM_cons] at h
    obtain ⟨db₁, hfirst, hrest⟩ := exists_of_bind h
    rw [ih hrest, tables_of_dropTable hchecked hfirst, List.filter_filter]
    refine List.filter_congr fun t _ => ?_
    rw [List.any_cons, Bool.not_or, Bool.and_comm]

theorem loses_of_dropTables (hchecked : terms.checked = false) (hdb : db.IsOwned)
    (h : db.dropTables terms ifPresent names = .ok db') : db.Loses names db' := by
  induction names generalizing db with
  | nil =>
    obtain rfl := Except.ok.inj h
    exact hdb.loses
  | cons n rest ih =>
    rw [dropTables, List.foldlM_cons] at h
    obtain ⟨db₁, hfirst, hrest⟩ := exists_of_bind h
    have hloses := loses_of_dropTable hchecked hdb hfirst
    exact hloses.trans (ih hloses.owned hrest)

end Store.Database

namespace Blueprint

variable {ifPresent : Bool} {names : List String} {s s' : Session}

/-- Statements that drop tables whose names are words do so one after the other. -/
theorem dropTables_of_runAll (hnames : ∀ n ∈ names, IsWord n) (hchecked : s.foreignKeys = false)
    (h : Statement.runAll s (dropStatements ifPresent names) = .ok s') :
    ∃ db, s' = s.withDatabase db ∧ s.database.dropTables s.terms ifPresent names = .ok db := by
  induction names generalizing s with
  | nil =>
    obtain rfl := Except.ok.inj h
    exact ⟨s.database, rfl, rfl⟩
  | cons n rest ih =>
    obtain ⟨s₁, hfirst, hothers⟩ := Statement.runAll_cons h
    obtain ⟨hword, hrest⟩ := List.forall_mem_cons.mp hnames
    obtain ⟨e, hfails⟩ | hdrops := Statement.run_drop_cases ifPresent hword s
    · rw [hfails] at hfirst
      cases hfirst
    · rw [hdrops] at hfirst
      obtain ⟨db₁, hdb₁, rfl⟩ := exists_of_map hfirst
      obtain ⟨db, rfl, hmore⟩ := ih (s := s.withDatabase db₁) hrest hchecked hothers
      refine ⟨db, rfl, ?_⟩
      rw [Database.dropTables, List.foldlM_cons, hdb₁]
      exact hmore

/-- Statements that drop tables leave those of all other names, where references are not checked. -/
theorem loses_of_runAll (hnames : ∀ n ∈ names, IsWord n) (hchecked : s.foreignKeys = false)
    (howned : s.database.IsOwned)
    (h : Statement.runAll s (dropStatements ifPresent names) = .ok s') :
    ∃ db, s' = s.withDatabase db ∧ s.database.Loses names db := by
  obtain ⟨db, rfl, hdropped⟩ := dropTables_of_runAll hnames hchecked h
  exact ⟨db, rfl, Database.loses_of_dropTables hchecked howned hdropped⟩

/-- Tables of plain names that differ, up to case, and are all there can be dropped one after the
other. -/
theorem exists_runAll (hchecked : s.foreignKeys = false)
    (hnames : ∀ n ∈ names, isPlainName n = true ∧ (s.database.table? n).isSome = true)
    (hapart : names.Pairwise fun a b => Text.sameFold a b = false) :
    ∃ s', Statement.runAll s (dropStatements ifPresent names) = .ok s' := by
  induction names generalizing s with
  | nil => exact ⟨s, rfl⟩
  | cons n rest ih =>
    obtain ⟨⟨hplain, hthere⟩, hrest⟩ := List.forall_mem_cons.mp hnames
    obtain ⟨hne, hapart⟩ := List.pairwise_cons.mp hapart
    obtain ⟨t, ht⟩ := Option.isSome_iff_exists.mp hthere
    have hdrops : (Statement.drop ifPresent n).run s true
        = .ok (s.withDatabase (s.database.without n)) := by
      rw [Statement.run_of_command? (Statement.command?_drop ifPresent hplain), Session.obey,
        Session.terms, hchecked, Database.dropTable, ht]
      rfl
    -- the others are still there
    obtain ⟨s', hs'⟩ := ih (s := s.withDatabase (s.database.without n)) hchecked
      (fun m hm => ⟨(hrest m hm).1, by
        change ((s.database.without n).table? m).isSome = true
        rw [Database.table?_without, Text.sameFold_comm, hne m hm]
        exact (hrest m hm).2⟩) hapart
    refine ⟨s', ?_⟩
    change Statement.runAll s (.drop ifPresent n :: dropStatements ifPresent rest) = _
    rw [Statement.runAll_cons_eq, hdrops]
    exact hs'

end Blueprint

end AccountHistory
