import AccountHistory.Proofs.DropStatements
import AccountHistory.Proofs.MigrationRun
import AccountHistory.Proofs.Recreation

/-!
# Emptying a database

All tables of a database are dropped in one transaction in which references are not checked. It
leaves an empty database of version zero, or all as it was, and a run of migrations on an empty
database makes all tables at once.

What the store keeps for itself is not dropped, as the table of the identifiers given out, once a
table has asked for it. It makes a difference to statements that look into it or take new
identifiers. So an emptied database is brought to a version like a new one if the statements for its
models make tables, indexes and triggers and do nothing else, or more generally, whoever obeys them,
if what they do does not depend on the identifiers given out.

* `Database.IsOrdinary` says what is asked of the database, `Blueprint.IgnoresSequence` what is
  asked of the models and of who obeys the statements for them;
* `Session.obey_withSequence` and `Blueprint.OnlyMakes.ignoresSequence` say that making objects does
  not depend on the identifiers given out;
* `Blueprint.dropAllTables_spec` says what dropping all tables leaves, and how migrations go on.
-/

namespace AccountHistory

open Store Sql

/-! ## Listed tables -/

namespace Store.Database

variable {db : Database}

/-- The beginning of the names that the store keeps for itself, without the mark behind it. -/
def storeLetters : List Char := ['s', 'q', 'l', 'i', 't', 'e']

/-- The name begins like those of the store, in any case. -/
def isStoreName (name : String) : Bool :=
  storeLetters.isPrefixOf (name.toList.map Text.small)

/-- The tables have names of one word each that do not begin like those of the store, and indexes
and triggers belong to tables that are there. -/
structure IsOrdinary (db : Database) : Prop where
  /-- the names are words -/
  words : ∀ t ∈ db.tables, IsWord t.name
  /-- they are not names of the store -/
  names : ∀ t ∈ db.tables, isStoreName t.name = false
  /-- what belongs to them -/
  owned : db.IsOwned

/-- Letters of a pattern stand for themselves, in any case. -/
theorem isLike_append_iff {letters pattern cs : List Char}
    (hletters : ∀ c ∈ letters, c ≠ '%' ∧ c ≠ '_') :
    Text.isLike (letters ++ pattern) cs = true ↔
      ∃ front rest, cs = front ++ rest ∧ front.map Text.small = letters.map Text.small ∧
        Text.isLike pattern rest = true := by
  induction letters generalizing cs with
  | nil =>
    constructor
    · intro h
      exact ⟨[], cs, rfl, rfl, h⟩
    · rintro ⟨front, rest, rfl, hfront, h⟩
      obtain rfl := List.map_eq_nil_iff.mp hfront
      exact h
  | cons p ps ih =>
    obtain ⟨⟨hmany, hone⟩, hrest⟩ := List.forall_mem_cons.mp hletters
    rw [List.cons_append, Text.isLike.eq_def]
    simp only [if_neg hmany]
    cases cs with
    | nil => simp
    | cons c cs =>
      simp only [Bool.and_eq_true, Bool.or_eq_true, beq_iff_eq, hone, false_or, ih hrest]
      constructor
      · rintro ⟨hfirst, front, rest, rfl, hfront, h⟩
        exact ⟨c :: front, rest, rfl, by simp [hfirst, hfront], h⟩
      · rintro ⟨front, rest, hcs, hfront, h⟩
        obtain ⟨d, front, rfl, hfirst, hletters⟩ := List.map_eq_cons_iff.mp hfront
        obtain ⟨rfl, rfl⟩ := List.cons.inj hcs
        exact ⟨hfirst.symm, front, rest, rfl, hletters, h⟩

/-- The mark for any one character and the mark for any text stand for one character or more. -/
theorem isLike_some_iff {cs : List Char} : Text.isLike ['_', '%'] cs = true ↔ cs ≠ [] := by
  have hall (cs : List Char) : Text.isLike ['%'] cs = true := by
    rw [Text.isLike.eq_def]
    simp only [if_true]
    induction cs with
    | nil => decide
    | cons c cs ih => simp [Text.someTail, ih]
  cases cs with
  | nil => decide
  | cons c cs => simp [Text.isLike.eq_def ('_' :: _), hall]

/-- What matches the pattern of internal names begins with the letters of the store, in any case,
and goes on. -/
theorem isLike_internalPattern_iff {cs : List Char} : Text.isLike internalPattern cs = true ↔
    ∃ c rest, cs.map Text.small = storeLetters ++ c :: rest := by
  have hsmall : storeLetters.map Text.small = storeLetters := by decide
  have hletters : ∀ c ∈ storeLetters, c ≠ '%' ∧ c ≠ '_' := by simp [storeLetters]
  have hpattern : internalPattern = storeLetters ++ ['_', '%'] := rfl
  simp only [hpattern, isLike_append_iff hletters, isLike_some_iff, hsmall]
  constructor
  · rintro ⟨front, rest, rfl, hfront, hne⟩
    obtain ⟨c, rest, rfl⟩ := List.exists_cons_of_ne_nil hne
    exact ⟨Text.small c, rest.map Text.small, by simp [hfront]⟩
  · rintro ⟨c, rest, hcs⟩
    obtain ⟨front, more, rfl, hfront, hmore⟩ := List.map_eq_append_iff.mp hcs
    refine ⟨front, more, rfl, hfront, ?_⟩
    rintro rfl
    cases hmore

/-- A name that matches the pattern of internal names begins like those of the store. -/
theorem isStoreName_of_isLike {name : String}
    (h : Text.isLike internalPattern name.toList = true) : isStoreName name = true := by
  obtain ⟨c, rest, hname⟩ := isLike_internalPattern_iff.mp h
  rw [isStoreName, hname]
  exact List.isPrefixOf_iff_prefix.mpr (List.prefix_append _ _)

theorem mem_sortedTables {name : String} : name ∈ db.sortedTables ↔
    ∃ t ∈ db.tables, t.name = name ∧ Text.isLike internalPattern name.toList = false := by
  rw [sortedTables, List.mem_eraseDups, List.mem_mergeSort, listedTables, List.mem_filter,
    List.mem_map, ← exists_and_right]
  simp only [and_assoc, Bool.not_eq_eq_eq_not, Bool.not_true]

/-- All tables of an ordinary database are listed. -/
theorem IsOrdinary.any_sortedTables (h : db.IsOrdinary) :
    ∀ t ∈ db.tables, db.sortedTables.any (Text.sameFold t.name) = true := by
  intro t ht
  have hlike : Text.isLike internalPattern t.name.toList = false := by
    by_contra hlike
    have hstore := isStoreName_of_isLike (Bool.of_not_eq_false hlike)
    rw [h.names t ht] at hstore
    cases hstore
  have hlisted : t.name ∈ db.sortedTables := mem_sortedTables.mpr ⟨t, ht, rfl, hlike⟩
  exact List.any_eq_true.mpr ⟨t.name, hlisted, Text.sameFold_self _⟩

end Store.Database

/-! ## Identifiers given out -/

namespace Store.Database

/-- The database with other identifiers given out. -/
def withSequence (db : Database) (given : Option (List (String × Int))) : Database :=
  { db with sequence := given }

variable (db : Database) (given : Option (List (String × Int)))

/-- Without tables, and with version zero, nothing is left but the identifiers given out. -/
theorem Loses.setVersion_eq {db db' : Database} {names : List String} (h : db.Loses names db')
    (hall : ∀ t ∈ db.tables, names.any (Text.sameFold t.name) = true) :
    db'.setVersion 0 = empty.withSequence db'.sequence := by
  obtain ⟨htables, hindexes, htriggers⟩ := h.eq_empty hall
  obtain ⟨tables, indexes, triggers, sequence, version⟩ := db'
  subst htables hindexes htriggers
  rfl

theorem createTable_withSequence (ifAbsent : Bool) (name : String) (columns : List ColumnDef)
    (rules : List TableRule) :
    ∃ given', (db.withSequence given).createTable ifAbsent name columns rules
      = (db.createTable ifAbsent name columns rules).map (·.withSequence given') := by
  rw [createTable, createTable]
  cases hthere : (db.table? name).isSome with
  | true =>
    have hthere' : ((db.withSequence given).table? name).isSome = true := hthere
    refine ⟨given, guard_map ?_⟩
    simp only [hthere', if_true]
    cases ifAbsent <;> rfl
  | false =>
    have hthere' : ((db.withSequence given).table? name).isSome = false := hthere
    -- a table that numbers its rows makes room for its identifiers
    let isNumbered := (Table.mk name columns rules []).isAutoincrement
    refine ⟨if isNumbered then some (given.getD []) else given, guard_map ?_⟩
    simp only [hthere', Bool.false_eq_true, if_false]
    refine guard_map ?_
    cases repeatedName? (Table.mk name columns rules []).columnNames with
    | some c => rfl
    | none =>
      refine guard_map ?_
      cases ruleFault? (Table.mk name columns rules []) with
      | some reason => rfl
      | none => rfl

theorem createIndex_withSequence (clock : Int) (ifAbsent : Bool) (i : Index) :
    (db.withSequence given).createIndex clock ifAbsent i
      = (db.createIndex clock ifAbsent i).map (·.withSequence given) := by
  rw [createIndex, createIndex]
  change (db.getTable i.table >>= _) = Except.map _ (db.getTable i.table >>= _)
  cases db.getTable i.table with
  | error e => rfl
  | ok t =>
    refine guard_map (guard_map ?_)
    cases hthere : (db.index? i.name).isSome with
    | true =>
      have hthere' : ((db.withSequence given).index? i.name).isSome = true := hthere
      simp only [hthere', if_true]
      cases ifAbsent <;> rfl
    | false =>
      have hthere' : ((db.withSequence given).index? i.name).isSome = false := hthere
      simp only [hthere', Bool.false_eq_true, if_false]
      cases t.missing? i.columns with
      | some c => rfl
      | none =>
        cases i.predicate.bind (unknownIn? t.known) with
        | some reason => rfl
        | none => exact guard_map (guard_map rfl)

theorem createTrigger_withSequence (ifAbsent : Bool) (g : Trigger) :
    (db.withSequence given).createTrigger ifAbsent g
      = (db.createTrigger ifAbsent g).map (·.withSequence given) := by
  rw [createTrigger, createTrigger]
  change (db.getTable g.table >>= _) = Except.map _ (db.getTable g.table >>= _)
  cases db.getTable g.table with
  | error e => rfl
  | ok t =>
    refine guard_map ?_
    cases hthere : (db.trigger? g.name).isSome with
    | true =>
      have hthere' : ((db.withSequence given).trigger? g.name).isSome = true := hthere
      simp only [hthere', if_true]
      cases ifAbsent <;> rfl
    | false =>
      have hthere' : ((db.withSequence given).trigger? g.name).isSome = false := hthere
      simp only [hthere', Bool.false_eq_true, if_false]
      rfl

end Store.Database

/-! ## Making objects -/

/-- The command makes a table, or an index or a trigger of a table that is none of the store. -/
def Sql.Command.isMaking : Command → Bool
  | .createTable .. => true
  | .createIndex _ _ _ table _ _ => !Database.isReserved table
  | .createTrigger _ g => !Database.isReserved g.table
  | _ => false

namespace Store.Session

variable {s : Session} {cs : List Command}

/-- The session on the database with other identifiers given out. -/
def withSequence (s : Session) (given : Option (List (String × Int))) : Session :=
  s.withDatabase (s.database.withSequence given)

/-- Making an object does not depend on the identifiers given out. -/
theorem obey_withSequence {c : Command} (hc : c.isMaking = true) (s : Session)
    (given : Option (List (String × Int))) :
    ∃ given', (s.withSequence given).obey true c = (s.obey true c).map (·.withSequence given') := by
  -- what makes another database of that of the session
  have hmade {x y : Except Fault Database} {given' : Option (List (String × Int))}
      (h : y = x.map (·.withSequence given')) : y.map (s.withSequence given).withDatabase
        = (x.map s.withDatabase).map (·.withSequence given') := by
    subst h
    cases x <;> rfl
  cases c with
  | createTable ifAbsent name columns rules =>
    obtain ⟨given', h⟩ := Database.createTable_withSequence s.database given ifAbsent name
      columns rules
    exact ⟨given', hmade h⟩
  | createIndex ifAbsent unique name table columns predicate =>
    exact ⟨given, hmade (Database.createIndex_withSequence s.database given s.clock ifAbsent
      ⟨name, table, unique, columns, predicate⟩)⟩
  | createTrigger ifAbsent g =>
    exact ⟨given, hmade (Database.createTrigger_withSequence s.database given ifAbsent g)⟩
  | dropTable | addColumn | renameTable | insert | insertFrom | delete | setVersion | setForeignKeys
    | setLegacyRename | setBusyTimeout | select | nothing => cases hc

theorem obeyAll_withSequence (hcs : ∀ c ∈ cs, c.isMaking = true) (s : Session)
    (given : Option (List (String × Int))) :
    ∃ given', (s.withSequence given).obeyAll true cs
      = ((s.obeyAll true cs).1.withSequence given', (s.obeyAll true cs).2) := by
  induction cs generalizing s given with
  | nil => exact ⟨given, rfl⟩
  | cons c rest ih =>
    obtain ⟨hc, hrest⟩ := List.forall_mem_cons.mp hcs
    obtain ⟨given₁, hobey⟩ := obey_withSequence hc s given
    rw [obeyAll, obeyAll, hobey]
    cases s.obey true c with
    | error e => exact ⟨given, rfl⟩
    | ok s₁ => exact ih hrest s₁ given₁

end Store.Session

/-- The statement can be read to its end, and makes tables, indexes and triggers and does nothing
else. -/
def Statement.Makes (st : Statement) : Prop :=
  st.reading.isBroken = false ∧ ∀ c ∈ st.reading.commands, c.isMaking = true

instance (st : Statement) : Decidable st.Makes :=
  inferInstanceAs (Decidable (_ ∧ _))

/-- What the statement does does not depend on the identifiers given out; it may give out some. -/
def Statement.IgnoresSequence (run : Runner) (st : Statement) : Prop :=
  ∀ (s : Session) (given : Option (List (String × Int))), ∃ given',
    run (s.withSequence given) st = (run s st).map (·.withSequence given')

/-- Making objects does not depend on the identifiers given out. -/
theorem Statement.Makes.ignoresSequence {st : Statement} (h : st.Makes) :
    st.IgnoresSequence runInside := by
  intro s given
  obtain ⟨given', hobeyed⟩ := Session.obeyAll_withSequence h.2 s given
  refine ⟨given', ?_⟩
  simp only [runInside, run_eq, Session.runScript, hobeyed]
  cases s.obeyAll true st.reading.commands with
  | mk s₁ e =>
    cases e with
    | some e => rfl
    | none => cases st.reading.isBroken <;> rfl

/-- Statements one after the other do not depend on the identifiers given out if none of them
does. -/
theorem Statement.runAllBy_withSequence {run : Runner} {sts : List Statement}
    (hsts : ∀ st ∈ sts, st.IgnoresSequence run) (s : Session)
    (given : Option (List (String × Int))) :
    ∃ given', runAllBy run (s.withSequence given) sts
      = (runAllBy run s sts).map (·.withSequence given') := by
  induction sts generalizing s given with
  | nil => exact ⟨given, rfl⟩
  | cons st rest ih =>
    obtain ⟨hfirst, hrest⟩ := List.forall_mem_cons.mp hsts
    obtain ⟨given₁, hrun⟩ := hfirst s given
    rw [runAllBy, runAllBy, hrun]
    cases run s st with
    | error e => exact ⟨given, rfl⟩
    | ok s₁ => exact ih hrest s₁ given₁

namespace Blueprint

variable {b : Blueprint} {run : Statement.Runner}

/-- The statements for the models make tables, indexes and triggers and do nothing else. -/
def OnlyMakes (b : Blueprint) : Prop :=
  ∀ statements, Model.creationAll b.models = .ok statements → ∀ st ∈ statements, st.Makes

/-- What the statements for the models do does not depend on the identifiers given out. -/
def IgnoresSequence (b : Blueprint) (run : Statement.Runner) : Prop :=
  ∀ statements, Model.creationAll b.models = .ok statements →
    ∀ st ∈ statements, st.IgnoresSequence run

theorem OnlyMakes.ignoresSequence (h : b.OnlyMakes) : b.IgnoresSequence Statement.runInside :=
  fun statements hmade st hst => (h statements hmade st hst).ignoresSequence

/-- Making all tables of such models does not depend on the identifiers given out. -/
theorem completeBy_withSequence (h : b.IgnoresSequence run) (s : Session)
    (given : Option (List (String × Int))) :
    ∃ given', b.completeBy run (s.withSequence given)
      = (b.completeBy run s).map (·.withSequence given') := by
  rw [completeBy, completeBy, createMissingBy, createMissingBy]
  cases hmade : Model.creationAll b.models with
  | error e => exact ⟨given, rfl⟩
  | ok statements =>
    obtain ⟨given', hrun⟩ := Statement.runAllBy_withSequence (h statements hmade) s given
    refine ⟨given', ?_⟩
    simp only [hrun]
    cases Statement.runAllBy run s statements <;> rfl

/-! ## Migrations on an empty database -/

variable {s : Session}

theorem isFresh_withSequence (given : Option (List (String × Int))) :
    IsFresh (Database.empty.withSequence given) := by
  have hlisted : (Database.empty.withSequence given).listedTables = [] := rfl
  refine ⟨rfl, ?_⟩
  rw [Database.sortedTables, hlisted, List.mergeSort_nil, List.eraseDups_nil]

/-- Migrations begin anew: none of them is run, and a run that succeeds reports that the database
was empty. -/
structure Restarts (run : Statement.Runner) (b : Blueprint) (s : Session) : Prop where
  /-- it makes no difference which migrations there are and what effect their texts have -/
  idle : ∀ effect effect' directory directory',
    b.migrateWith run effect directory s = b.migrateWith run effect' directory' s
  /-- the report -/
  created : ∀ effect directory summary, (b.migrateWith run effect directory s).2 = .ok summary →
    summary = ⟨0, b.version, true, []⟩

theorem restarts_of_isFresh (run : Statement.Runner) (b : Blueprint) (h : IsFresh s.database) :
    b.Restarts run s where
  idle effect effect' directory directory' := by
    rw [migrateWith_of_isFresh run _ b _ h, migrateWith_of_isFresh run _ b _ h]
  created effect directory summary hsummary := by
    rw [migrateWith_of_isFresh run _ b _ h] at hsummary
    cases hcomplete : b.completeBy run s with
    | error e =>
      rw [hcomplete] at hsummary
      cases hsummary
    | ok s' =>
      rw [hcomplete] at hsummary
      exact (Except.ok.inj hsummary).symm

/-- Two runs have one result, and leave the same tables, indexes, triggers and version under the
same settings. They may differ in the identifiers given out: the table in which the store keeps
these may be there behind one of them only, for it is not dropped. -/
def EndAlike (r r' : Session × Except MigrationError MigrationSummary) : Prop :=
  r.2 = r'.2 ∧ ∃ given, r.1 = r'.1.withSequence given

/-- On an empty database it makes no difference to such models what identifiers were given out. -/
theorem migrateWith_withSequence (hb : b.IgnoresSequence run) (effect : Effect)
    (directory : Option MigrationDirectory) (h : IsFresh s.database)
    (given : Option (List (String × Int))) :
    EndAlike (b.migrateWith run effect directory (s.withSequence given))
      (b.migrateWith run effect directory s) := by
  have h' : IsFresh (s.withSequence given).database := h
  obtain ⟨given', hcomplete⟩ := completeBy_withSequence hb s given
  rw [migrateWith_of_isFresh run _ b _ h, migrateWith_of_isFresh run _ b _ h', hcomplete]
  cases b.completeBy run s with
  | error e => exact ⟨rfl, given, rfl⟩
  | ok s' => exact ⟨rfl, given', rfl⟩

/-! ## Dropping all tables -/

/-- All tables are dropped, or all is as it was. -/
theorem dropAllTables_eq (ifPresent : Bool) (s : Session) : dropAllTables ifPresent s
    = match Statement.runAll { s with foreignKeys := false }
        (dropStatements ifPresent s.database.sortedTables) with
      | .error e => (s, .error (.store e))
      | .ok s' => ({ stamp 0 s' with foreignKeys := s'.foreignKeys || s.foreignKeys },
          .ok s.database.sortedTables.length) := by
  rw [dropAllTables, transact, runDrops]
  cases Statement.runAll { s with foreignKeys := false }
    (dropStatements ifPresent s.database.sortedTables) <;> rfl

theorem dropAllTables_cases (h : s.database.IsOrdinary) (ifPresent : Bool) :
    (∃ e, dropAllTables ifPresent s = (s, .error e)) ∨
      ∃ given, dropAllTables ifPresent s = (s.withDatabase (Database.empty.withSequence given),
        .ok s.database.sortedTables.length) := by
  have hwords : ∀ n ∈ s.database.sortedTables, IsWord n := by
    intro n hn
    obtain ⟨t, ht, rfl, -⟩ := Database.mem_sortedTables.mp hn
    exact h.words t ht
  rw [dropAllTables_eq]
  cases hrun : Statement.runAll { s with foreignKeys := false }
      (dropStatements ifPresent s.database.sortedTables) with
  | error e => exact .inl ⟨_, rfl⟩
  | ok s' =>
    obtain ⟨db, rfl, hloses⟩ :=
      loses_of_runAll (s := { s with foreignKeys := false }) hwords rfl h.owned hrun
    refine .inr ⟨db.sequence, ?_⟩
    rw [← hloses.setVersion_eq h.any_sortedTables]
    rfl

/-- **Dropping all tables.** Whatever references there are between the tables, either all of them
are dropped, and nothing is left but, at most, the identifiers given out, with version zero, or all
is as it was; the settings stay in both cases. The first is the case if the names are plain ones and
differ up to case. Migrations begin anew then, and end as on an empty database if what the
statements for the models do does not depend on the identifiers given out, as making tables,
indexes and triggers does not. -/
theorem dropAllTables_spec (h : s.database.IsOrdinary) (ifPresent : Bool) :
    ((∃ e, dropAllTables ifPresent s = (s, .error e)) ∨
      ∃ s' given, dropAllTables ifPresent s = (s', .ok s.database.sortedTables.length) ∧
        s' = s.withDatabase (Database.empty.withSequence given) ∧ IsFresh s'.database ∧
        ∀ run (b : Blueprint), b.Restarts run s' ∧
          (b.IgnoresSequence run → ∀ effect directory,
            EndAlike (b.migrateWith run effect directory s')
              (b.migrateWith run effect directory (s.withDatabase .empty)))) ∧
    ((∀ n ∈ s.database.sortedTables, isPlainName n = true) →
      (s.database.sortedTables.Pairwise fun a b => Text.sameFold a b = false) →
      ∃ s' count, dropAllTables ifPresent s = (s', .ok count)) := by
  constructor
  · refine (dropAllTables_cases h ifPresent).imp id ?_
    rintro ⟨given, hdropped⟩
    have hfresh := isFresh_withSequence given
    refine ⟨_, given, hdropped, rfl, hfresh, fun run b =>
      ⟨restarts_of_isFresh run b hfresh, fun hb effect directory => ?_⟩⟩
    exact migrateWith_withSequence (s := s.withDatabase .empty) hb effect directory
      (isFresh_withSequence none) given
  · intro hplain hapart
    have hnames : ∀ n ∈ s.database.sortedTables,
        isPlainName n = true ∧ (s.database.table? n).isSome = true := by
      intro n hn
      obtain ⟨t, ht, rfl, -⟩ := Database.mem_sortedTables.mp hn
      exact ⟨hplain _ hn, List.find?_isSome.mpr ⟨t, ht, Text.sameFold_self _⟩⟩
    have hruns : ∃ s', Statement.runAll { s with foreignKeys := false }
        (dropStatements ifPresent s.database.sortedTables) = .ok s' :=
      exists_runAll rfl hnames hapart
    obtain ⟨s', hs'⟩ := hruns
    rw [dropAllTables_eq, hs']
    exact ⟨_, _, rfl⟩

/-- A table whose rows refer to another one. -/
def referring (name parent : String) (rows : List Row) : Table :=
  ⟨name, [⟨"next", .integer, false, none, .const .null⟩],
    [.foreignKey ⟨["next"], parent, [], .refuse, .refuse⟩], rows⟩

/-- Two tables that refer to each other, with an index and a trigger. There was a table before that
numbered its rows. -/
def ring : Database where
  tables := [referring "even" "odd" [⟨1, [.int 1]⟩], referring "odd" "even" [⟨1, [.int 1]⟩]]
  indexes := [⟨"odd_next", "odd", false, ["next"], none⟩]
  triggers := [⟨"seen", "even", .insert, none, [.select [.const (.int 1)]]⟩]
  sequence := some []
  version := 3

theorem isOrdinary_ring : ring.IsOrdinary where
  words := by
    intro t ht
    have hplain : ∀ t ∈ ring.tables, isPlainName t.name = true := by decide +kernel
    exact isWord_of_isPlainName (hplain t ht)
  names := by decide +kernel
  owned := ⟨by decide +kernel, by decide +kernel⟩

theorem onlyMakes_watched : (⟨[("t", watched)], 1⟩ : Blueprint).OnlyMakes := by
  intro statements hmade
  have hall : ∀ st ∈ (Model.creationAll [("t", watched)]).toOption.getD [], st.Makes := by
    decide +kernel
  rwa [hmade] at hall

/-- Each of the tables refers to the other, and both are dropped. A table that numbers its rows is
made then as in a new database. -/
theorem dropAllTables_spec_ring : ring.IsOrdinary ∧ ∃ s' : Session,
    dropAllTables false (.start ring 0) = (s', .ok 2) ∧ IsFresh s'.database ∧
      s'.foreignKeys = true ∧
        EndAlike (migrate ⟨[("t", watched)], 1⟩ none s')
          (migrate ⟨[("t", watched)], 1⟩ none (.start .empty 0)) := by
  obtain ⟨hends, hgoes⟩ := dropAllTables_spec (s := .start ring 0) isOrdinary_ring false
  have hsorted : (Session.start ring 0).database.sortedTables = ["even", "odd"] := by
    have hlisted : ring.listedTables = ["even", "odd"] := by decide +kernel
    change ring.sortedTables = _
    rw [Database.sortedTables, hlisted, List.mergeSort_of_pairwise (by decide +kernel)]
    rfl
  rw [hsorted] at hends hgoes
  obtain ⟨s₁, count, hdropped⟩ := hgoes (by decide +kernel) (by decide +kernel)
  obtain ⟨e, hfails⟩ | ⟨s', given, hs', rfl, hfresh, hmigrates⟩ := hends
  · rw [hfails] at hdropped
    cases hdropped
  · exact ⟨isOrdinary_ring, _, hs', hfresh, rfl,
      (hmigrates Statement.runInside ⟨[("t", watched)], 1⟩).2 onlyMakes_watched.ignoresSequence
        (fun text s => s.runInside text) none⟩

/-- A table that numbers its rows. -/
def formerly : Database where
  tables := [⟨"old", [⟨"_id", .integer, true, some .autoincrement, .const .null⟩], [], []⟩]
  indexes := []
  triggers := []
  sequence := some []
  version := 0

/-- A table that does not, made with a statement about the identifiers given out. -/
def forgetting : Blueprint where
  models := [("t", {
    columns := [⟨"mts", .bigint⟩]
    constraints := []
    triggers := [⟨"DELETE FROM sqlite_sequence"⟩]
    indexes := []
    uniqueIndexes := [] })]
  version := 1

/-- A table whose name begins like those of the store, in capitals. -/
def shouting : Database := ⟨[⟨"SQLITEX", [], [], []⟩], [], [], none, 0⟩

/-- What is not dropped. The memory of the identifiers given out stays, and a statement about it
succeeds on the emptied database and fails on a new one. A table whose name begins like those of the
store is not listed, in capitals either, and stays. -/
theorem dropAllTables_leaves :
    (formerly.IsOrdinary ∧ ∃ s' s'' e,
      dropAllTables false (.start formerly 0) = (s', .ok 1) ∧
        forgetting.migrate none s' = (s'', .ok ⟨0, 1, true, []⟩) ∧
        forgetting.migrate none (.start .empty 0) = (.start .empty 0, .error e)) ∧
    (∀ t ∈ shouting.tables, isPlainName t.name = true ∧
      Database.storeLetters.isPrefixOf t.name.toList = false) ∧
    dropAllTables false (.start shouting 0) = (.start shouting 0, .ok 0) := by
  have hordinary : formerly.IsOrdinary := by
    have hplain : ∀ t ∈ formerly.tables, isPlainName t.name = true := by decide +kernel
    exact ⟨fun t ht => isWord_of_isPlainName (hplain t ht), by decide +kernel,
      ⟨by decide +kernel, by decide +kernel⟩⟩
  have hdropped : dropAllTables false (.start formerly 0)
      = (.start (Database.empty.withSequence (some [])) 0, .ok 1) := by
    decide +kernel
  have hagain : (forgetting.migrate none
      (.start (Database.empty.withSequence (some [])) 0)).2 = .ok ⟨0, 1, true, []⟩ := by
    decide +kernel
  have hnew : forgetting.migrate none (.start .empty 0) = (.start .empty 0,
      .error (.store (.refused (.noSuchTable "sqlite_sequence")))) := by
    decide +kernel
  refine ⟨⟨hordinary, _, _, _, hdropped, Prod.ext rfl hagain, hnew⟩, ?_, ?_⟩
  · decide +kernel
  · decide +kernel

end Blueprint

end AccountHistory
