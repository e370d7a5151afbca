import AccountHistory.Proofs.Outcomes
import AccountHistory.Proofs.Rows

/-!
# What statements on rows keep

A statement on rows takes steps on single rows, and each step may set off others: references are
followed, triggers act, and their steps have reactions in turn. So what is true of a database behind
a statement is found by looking at single steps.

* `Keeps` says that a property of databases holds through single steps, as long as these give values
  for admitted columns only, and that triggers and references give no others. A row that is passed
  over takes no step, but its identifier may be noted;
* `Keeps.react`, by induction on the depth, says that it holds through reactions;
* `Keeps.insert` and `Keeps.delete` say that it holds through statements.
-/

namespace AccountHistory

namespace Store.Database

open Sql

/-- The action gives values for admitted columns of a table only. -/
def Admits (admitted : String → String → Prop) (db : Database) : Action → Prop
  | .insert table columns _ =>
    ∀ t, db.table? table = some t → ∀ c ∈ t.columnsGiven columns, admitted table c
  | .update table assignments _ => ∀ a ∈ assignments, admitted table a.1
  | .delete _ _ | .select _ => True

/-- The property holds through steps on single rows that give values for admitted columns only. The
triggers are the same in all databases that have the property, and neither these nor references give
values for other columns. -/
structure Keeps (clock : Int) (admitted : String → String → Prop) (all : List Trigger)
    (I : Database → Prop) : Prop where
  /-- a row comes -/
  add : ∀ {db db' name t given r}, I db → db.table? name = some t →
    (∀ a ∈ given, admitted name a.1) → db.addRow clock t given = .ok (db', r) → I db'
  /-- a row gets new values -/
  replace : ∀ {db db' name t r assignments r'}, I db → db.table? name = some t → r ∈ t.rows →
    (∀ a ∈ assignments, admitted name a.1) →
    db.replaceRow clock t r assignments = .ok (db', r') → I db'
  /-- a row goes -/
  remove : ∀ {db name t} (id : Int), I db → db.table? name = some t →
    I (db.withRows name (t.rowsBut id))
  /-- an identifier is noted -/
  note : ∀ {db name t} (id : Int), I db → db.table? name = some t → I (db.noting t id)
  /-- triggers -/
  triggers : ∀ {db}, I db → db.triggers = all
  /-- what they do -/
  actions : ∀ {db}, I db → ∀ g ∈ all, ∀ a ∈ g.actions, db.Admits admitted a
  /-- references -/
  references : ∀ {db}, I db → ∀ t ∈ db.tables, ∀ f ∈ t.foreignKeys, ∀ c ∈ f.columns,
    admitted t.name c

variable {clock : Int} {admitted : String → String → Prop} {all : List Trigger}
  {I : Database → Prop} {after : Reaction} {db db' : Database} {table : String}

/-- What follows a change keeps the property. -/
def Reaction.Keeps (I : Database → Prop) (after : Reaction) : Prop :=
  ∀ change db db', I db → after change db = .ok db' → I db'

theorem mem_referencesTo {parent : String} {child : Table} {f : ForeignKey}
    (h : (child, f) ∈ db.referencesTo parent) : child ∈ db.tables ∧ f ∈ child.foreignKeys := by
  obtain ⟨hmem, -⟩ := List.mem_filter.mp h
  obtain ⟨t, ht, hpair⟩ := List.mem_flatMap.mp (List.mem_reverse.mp hmem)
  obtain ⟨f', hf', heq⟩ := List.mem_map.mp hpair
  obtain ⟨rfl, rfl⟩ := Prod.mk.inj heq
  exact ⟨ht, hf'⟩

theorem settled_ok {terms : Terms} {before : Database}
    (h : settled terms before db = .ok db') : db' = db := by
  rw [settled] at h
  split at h
  · obtain ⟨-, h⟩ := of_guard h
    exact (Except.ok.inj h).symm
  · exact (Except.ok.inj h).symm

namespace Keeps

variable {terms : Terms} (hkeeps : Keeps clock admitted all I) (hclock : terms.clock = clock)
include hkeeps hclock

/-! ## Rows one after the other -/

theorem addRows (hafter : Reaction.Keeps I after) {columns : List String} {rows : List (List Value)}
    (hcolumns : ∀ c ∈ columns, admitted table c) (hdb : I db)
    (h : Database.addRows terms after table columns rows db = .ok db') : I db' := by
  refine foldlM_keeps (fun values _ db db' hdb h => ?_) hdb h
  obtain ⟨t, ht, h⟩ := exists_of_bind h
  obtain ⟨passed, -, h⟩ := exists_of_bind h
  cases passed with
  | some id =>
    obtain rfl := Except.ok.inj h
    exact hkeeps.note id hdb (table?_of_getTable ht)
  | none =>
    obtain ⟨⟨db₁, r⟩, hadded, h⟩ := exists_of_bind h
    rw [hclock] at hadded
    refine hafter _ _ _ (hkeeps.add hdb (table?_of_getTable ht) (fun a ha => ?_) hadded) h
    exact hcolumns a.1 (List.of_mem_zip ha).1

theorem changeRows (hafter : Reaction.Keeps I after) {pick : Table → Row → Bool}
    {assign : Table → Row → List (String × Value)}
    (hassign : ∀ t r, ∀ a ∈ assign t r, admitted table a.1) (hdb : I db)
    (h : Database.changeRows terms after table pick assign db = .ok db') : I db' := by
  obtain ⟨_, _, h⟩ := exists_of_bind h
  refine foldlM_keeps (fun picked _ db db' hdb h => ?_) hdb h
  obtain ⟨t, ht, h⟩ := exists_of_bind h
  split at h
  · obtain rfl := Except.ok.inj h
    exact hdb
  case h_2 r hr =>
    have hmem : r ∈ t.rows := List.mem_of_find?_eq_some hr
    obtain ⟨passed, -, h⟩ := exists_of_bind h
    cases passed with
    | true =>
      obtain rfl := Except.ok.inj h
      exact hdb
    | false =>
      obtain ⟨⟨db₁, r'⟩, hreplaced, h⟩ := exists_of_bind h
      rw [hclock] at hreplaced
      exact hafter _ _ _ (hkeeps.replace hdb (table?_of_getTable ht) hmem (hassign t r) hreplaced) h

omit hclock in
theorem removeRows (hafter : Reaction.Keeps I after) {pick : Table → Row → Bool} (hdb : I db)
    (h : Database.removeRows after table pick db = .ok db') : I db' := by
  obtain ⟨_, _, h⟩ := exists_of_bind h
  refine foldlM_keeps (fun picked _ db db' hdb h => ?_) hdb h
  obtain ⟨t, ht, h⟩ := exists_of_bind h
  split at h
  · obtain rfl := Except.ok.inj h
    exact hdb
  · exact hafter _ _ _ (hkeeps.remove _ hdb (table?_of_getTable ht)) h

/-! ## Reactions -/

theorem followReferences (hafter : Reaction.Keeps I after) {change : RowChange} (hdb : I db)
    (h : Database.followReferences terms after change db = .ok db') : I db' := by
  rw [Database.followReferences] at h
  split at h
  · obtain rfl := Except.ok.inj h
    exact hdb
  refine foldlM_keeps (fun p hp db₁ db₂ hdb₁ h => ?_) hdb h
  obtain ⟨hchild, hf⟩ := mem_referencesTo hp
  have hadmitted := hkeeps.references hdb p.1 hchild p.2 hf
  -- whatever the reference does, it gives values for its own columns
  have hset {values : List Value} {pick : Table → Row → Bool}
      (h : Database.changeRows terms.strict after p.1.name pick (fun _ _ => p.2.columns.zip values)
        db₁ = .ok db₂) : I db₂ := by
    have hstrict : terms.strict.clock = clock := hclock
    exact hkeeps.changeRows hstrict hafter
      (fun _ _ a ha => hadmitted a.1 (List.of_mem_zip ha).1) hdb₁ h
  dsimp only at h
  split at h
  · obtain rfl := Except.ok.inj h
    exact hdb₁
  rw [followReference] at h
  dsimp only at h
  split at h
  · obtain rfl := Except.ok.inj h
    exact hdb₁
  · obtain ⟨-, h⟩ := of_guard h
    obtain rfl := Except.ok.inj h
    exact hdb₁
  · split at h
    · exact hkeeps.removeRows hafter hdb₁ h
    · exact hset h
  · exact hset h
  · exact hset h

theorem act (hafter : Reaction.Keeps I after) {change : RowChange} {a : Action} (hdb : I db)
    (ha : db.Admits admitted a) (h : Database.act terms after change db a = .ok db') : I db' := by
  cases a with
  | select =>
    obtain rfl := Except.ok.inj h
    exact hdb
  | update table assignments condition =>
    rw [Database.act] at h
    refine hkeeps.changeRows hclock hafter (fun _ _ b hb => ?_) hdb h
    obtain ⟨b', hb', rfl⟩ := List.mem_map.mp hb
    exact ha b' hb'
  | insert table columns rows =>
    obtain ⟨t, ht, h⟩ := exists_of_bind h
    exact hkeeps.addRows hclock hafter (ha t (table?_of_getTable ht)) hdb h
  | delete table condition =>
    rw [Database.act] at h
    exact hkeeps.removeRows hafter hdb h

/-- The property holds through reactions. A reaction is made of steps whose reactions are less deep.
-/
theorem react (fuel : Nat) (active : List String) :
    Reaction.Keeps I (Database.react terms fuel active) := by
  -- the terms change on the way, but not the moment
  induction fuel generalizing terms active with
  | zero => exact fun _ _ _ _ h => nomatch h
  | succ fuel ih =>
    intro change db db' hdb h
    rw [Database.react] at h
    -- the triggers that act are some of those that all databases on the way have
    have hdue {db₁ : Database} (hdb₁ : I db₁) (h : (((db₁.triggersOn change.event
        change.table.name).filter fun g =>
          !active.contains g.name && change.sets terms.clock g).foldlM
          (fun db g => g.actions.foldlM (Database.act (terms.behind change.event)
            (Database.react (terms.behind change.event) fuel (g.name :: active)) change) db) db₁)
        = .ok db') : I db' := by
      refine foldlM_keeps (fun g hg db db' hdb h => ?_) hdb₁ h
      have hmem : g ∈ all := by
        obtain ⟨hwatch, -⟩ := List.mem_filter.mp hg
        obtain ⟨hmem, -⟩ := List.mem_filter.mp hwatch
        rw [← hkeeps.triggers hdb₁]
        exact List.mem_reverse.mp hmem
      refine foldlM_keeps (fun a ha db db' hdb h => ?_) hdb h
      have hbehind : (terms.behind change.event).clock = clock := hclock
      exact hkeeps.act hbehind (ih hbehind (g.name :: active)) hdb
        (hkeeps.actions hdb g hmem a ha) h
    split at h
    · obtain ⟨db₁, hfollowed, h⟩ := exists_of_bind h
      have hstrict : terms.strict.clock = clock := hclock
      exact hdue (hkeeps.followReferences hclock (ih hstrict active) hdb hfollowed) h
    · exact hdue hdb h

/-! ## Statements -/

/-- The property holds through an insertion that gives values for admitted columns only. -/
theorem insert {many : Bool} {columns : List String} {rows : List (List Value)}
    (hcolumns : ∀ c ∈ columns, admitted table c) (hdb : I db)
    (h : db.insert terms many table columns rows = .ok db') : I db' := by
  obtain ⟨t, ht, h⟩ := exists_of_bind h
  split at h
  · cases h
  obtain ⟨-, -, h⟩ := exists_of_bind h
  obtain ⟨db₁, hadded, h⟩ := exists_of_bind h
  obtain rfl := settled_ok h
  have hexpecting := hkeeps.note 0 hdb (table?_of_getTable ht)
  exact hkeeps.addRows hclock (hkeeps.react hclock _ _) hcolumns hexpecting hadded

/-- The property holds through a deletion. -/
theorem delete {condition : Option Expr} (hdb : I db)
    (h : db.delete terms table condition = .ok db') : I db' := by
  obtain ⟨t, -, h⟩ := exists_of_bind h
  split at h
  · cases h
  obtain ⟨-, -, h⟩ := exists_of_bind h
  obtain ⟨db₁, hremoved, h⟩ := exists_of_bind h
  obtain rfl := settled_ok h
  exact hkeeps.removeRows (hkeeps.react hclock _ _) hdb hremoved

end Keeps

end Store.Database

end AccountHistory
