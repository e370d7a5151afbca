import AccountHistory.Proofs.Drafts

/-!
# Placeholders

What a template is and what it becomes, said of its text without the reader that cuts it:

* `Opens` and `IsLiteral` say where the first opening mark of a text stands, or that there is none;
* `Meets` says which opening marks are met from left to right, where the search goes on behind each
  placeholder;
* `Splits` cuts a text into plain texts and placeholders in the same way.

The reader makes its pieces at these places. So a text is a template exactly when each mark that is
met opens a placeholder with a plain name, a template is cut in one way only, and rendering puts the
values into the places of the cut (`Template.parse_splits`). A value is not searched for marks.
-/

namespace AccountHistory

open Text

namespace Template

/-! ## Opening marks -/

/-- The two characters that open a placeholder. -/
def opening : List Char := ['#', '\x7b']

/-- The character that closes one. -/
def closing : Char := '\x7d'

/-- There is no opening mark in `cs`. -/
def IsLiteral (cs : List Char) : Prop :=
  ∀ u w, cs ≠ u ++ opening ++ w

/-- The first opening mark of `cs` stands between `before` and `behind`. -/
structure Opens (cs before behind : List Char) : Prop where
  /-- a mark stands there -/
  cut : cs = before ++ opening ++ behind
  /-- no other one stands further in front -/
  first : ∀ u w, cs = u ++ opening ++ w → before.length ≤ u.length

variable {c : Char} {cs before behind literal name rest : List Char}

theorem Opens.unique {before' behind' : List Char} (h : Opens cs before behind)
    (h' : Opens cs before' behind') : before = before' ∧ behind = behind' := by
  have hlength : before.length = before'.length :=
    Nat.le_antisymm (h.first _ _ h'.cut) (h'.first _ _ h.cut)
  have heq := h.cut.symm.trans h'.cut
  rw [List.append_assoc, List.append_assoc] at heq
  obtain ⟨hbefore, hbehind⟩ := List.append_inj heq hlength
  exact ⟨hbefore, List.append_cancel_left hbehind⟩

theorem not_isLiteral_of_opens (h : Opens cs before behind) : ¬IsLiteral cs := by
  intro hliteral
  exact hliteral _ _ h.cut

/-- A mark at the very front is the first one. -/
theorem opens_mark (cs : List Char) : Opens (opening ++ cs) [] cs := by
  constructor
  · rfl
  · intro u w _
    exact Nat.zero_le _

/-- A mark behind one more character stands where it stood, or at the very front. -/
theorem cons_eq_append_opening {u w : List Char} (h : c :: cs = u ++ opening ++ w) :
    (u = [] ∧ c :: cs = opening ++ w) ∨ ∃ v, u = c :: v ∧ cs = v ++ opening ++ w := by
  cases u with
  | nil => exact .inl ⟨rfl, h⟩
  | cons d v =>
    rw [List.cons_append, List.cons_append] at h
    obtain ⟨rfl, htail⟩ := List.cons.inj h
    exact .inr ⟨v, rfl, htail⟩

theorem isLiteral_cons_iff :
    IsLiteral (c :: cs) ↔ (∀ w, c :: cs ≠ opening ++ w) ∧ IsLiteral cs := by
  constructor
  · intro h
    refine ⟨fun w => h [] w, ?_⟩
    intro u w hcs
    exact h (c :: u) w (by rw [hcs]; rfl)
  · rintro ⟨hfront, htail⟩ u w h
    rcases cons_eq_append_opening h with ⟨-, h⟩ | ⟨v, -, h⟩
    · exact hfront w h
    · exact htail v w h

theorem opens_cons_iff (hfront : ∀ w, c :: cs ≠ opening ++ w) :
    Opens (c :: cs) (c :: before) behind ↔ Opens cs before behind := by
  constructor
  · intro h
    refine ⟨(List.cons.inj h.cut).2, ?_⟩
    intro u w hcs
    have := h.first (c :: u) w (by rw [hcs]; rfl)
    simpa using this
  · intro h
    refine ⟨by rw [h.cut]; rfl, ?_⟩
    intro u w hcs
    rcases cons_eq_append_opening hcs with ⟨-, hmark⟩ | ⟨v, rfl, htail⟩
    · exact absurd hmark (hfront w)
    · have := h.first v w htail
      simpa using this

/-- A text is plain, or there is a first mark in it. -/
theorem isLiteral_or_opens (cs : List Char) :
    IsLiteral cs ∨ ∃ before behind, Opens cs before behind := by
  induction cs with
  | nil => exact .inl fun u w h => by simp [opening] at h
  | cons c cs ih =>
    by_cases hfront : ∃ w, c :: cs = opening ++ w
    · obtain ⟨w, hw⟩ := hfront
      exact .inr ⟨[], w, hw ▸ opens_mark w⟩
    · rw [not_exists] at hfront
      rcases ih with hliteral | ⟨before, behind, h⟩
      · exact .inl (isLiteral_cons_iff.mpr ⟨hfront, hliteral⟩)
      · exact .inr ⟨c :: before, behind, (opens_cons_iff hfront).mpr h⟩

/-- **Reading from left to right.** What holds of plain texts and of those whose first mark is not
closed, and of a text if it holds of what follows its first placeholder, holds of all texts. -/
theorem scan_induction {P : List Char → Prop} (plain : ∀ cs, IsLiteral cs → P cs)
    (unclosed : ∀ cs before behind, Opens cs before behind → closing ∉ behind → P cs)
    (slot : ∀ cs literal name rest, Opens cs literal (name ++ closing :: rest) → closing ∉ name →
      P rest → P cs) (cs : List Char) : P cs := by
  induction hn : cs.length using Nat.strong_induction_on generalizing cs with
  | _ n ih =>
    rcases isLiteral_or_opens cs with h | ⟨before, behind, h⟩
    · exact plain cs h
    · by_cases hclosed : closing ∈ behind
      · obtain ⟨name, rest, rfl, hname⟩ := List.eq_append_cons_of_mem hclosed
        have hlength := congrArg List.length h.cut
        simp only [List.length_append, List.length_cons] at hlength
        exact slot cs before name rest h hname (ih rest.length (by omega) rest rfl)
      · exact unclosed cs before behind h hclosed

end Template

/-! ## The pieces of a text -/

namespace Pieces

open Template

variable {cs before behind literal name rest : List Char}

theorem readLiteral_of_isLiteral (h : IsLiteral cs) (seen : List Char) :
    readLiteral seen cs = .last (seen.reverse ++ cs) := by
  induction cs generalizing seen with
  | nil => simp [readLiteral]
  | cons c cs ih =>
    obtain ⟨hfront, htail⟩ := isLiteral_cons_iff.mp h
    cases cs with
    | nil => simp [readLiteral]
    | cons d ds =>
      have hmark : ¬(c = '#' ∧ d = '\x7b') := by
        rintro ⟨rfl, rfl⟩
        exact hfront ds rfl
      simp [readLiteral, hmark, ih htail]

theorem readLiteral_of_opens (h : Opens cs before behind) (seen : List Char) :
    readLiteral seen cs = readName (seen.reverse ++ before) [] behind := by
  induction before generalizing cs seen with
  | nil =>
    obtain rfl := h.cut
    simp [readLiteral, opening]
  | cons c before ih =>
    obtain ⟨d, ds, hds⟩ : ∃ d ds, before ++ opening ++ behind = d :: ds :=
      List.exists_cons_of_ne_nil (by simp [opening])
    obtain rfl : cs = c :: d :: ds := by rw [h.cut, ← hds]; rfl
    -- a mark at the front would stand before the first one
    have hfront : ∀ w, c :: d :: ds ≠ opening ++ w := by
      intro w hw
      have := h.first [] w hw
      simp at this
    have hmark : ¬(c = '#' ∧ d = '\x7b') := by
      rintro ⟨rfl, rfl⟩
      exact hfront ds rfl
    simp [readLiteral, hmark, ih ((opens_cons_iff hfront).mp h)]

theorem readName_of_closed (h : closing ∉ name) (seen : List Char) :
    readName literal seen (name ++ closing :: rest)
      = .slot literal (seen.reverse ++ name) (ofChars rest) := by
  induction name generalizing seen with
  | nil => simp [readName, closing, ofChars]
  | cons c name ih =>
    simp only [List.mem_cons, not_or] at h
    have hc : c ≠ '\x7d' := fun heq => h.1 heq.symm
    simp [readName, hc, ih h.2]

theorem readName_of_unclosed (h : closing ∉ cs) (seen : List Char) :
    readName literal seen cs = .unclosed literal := by
  induction cs generalizing seen with
  | nil => simp [readName]
  | cons c cs ih =>
    simp only [List.mem_cons, not_or] at h
    have hc : c ≠ '\x7d' := fun heq => h.1 heq.symm
    simp [readName, hc, ih h.2]

theorem ofChars_of_isLiteral (h : IsLiteral cs) : ofChars cs = .last cs := by
  rw [ofChars, readLiteral_of_isLiteral h]
  rfl

theorem ofChars_of_unclosed (h : Opens cs before behind) (hbehind : closing ∉ behind) :
    ofChars cs = .unclosed before := by
  rw [ofChars, readLiteral_of_opens h, readName_of_unclosed hbehind]
  rfl

theorem ofChars_of_slot (h : Opens cs literal (name ++ closing :: rest)) (hname : closing ∉ name) :
    ofChars cs = .slot literal name (ofChars rest) := by
  rw [ofChars, readLiteral_of_opens h, readName_of_closed hname]
  rfl

end Pieces

namespace Template

/-! ## Well-formed texts -/

/-- Reading a text from left to right meets an opening mark behind which `behind` stands. -/
inductive Meets : List Char → List Char → Prop
  /-- the first one -/
  | first {cs before behind : List Char} (h : Opens cs before behind) : Meets cs behind
  /-- one behind the first placeholder -/
  | later {cs literal name rest behind : List Char} (h : Opens cs literal (name ++ closing :: rest))
    (hname : closing ∉ name) (hrest : Meets rest behind) : Meets cs behind

/-- The first closing brace in `behind` ends a name: not empty, and made of ASCII letters, ASCII
digits and underscores. -/
def StartsNamed (behind : List Char) : Prop :=
  ∃ name rest, behind = name ++ closing :: rest ∧ closing ∉ name ∧ name ≠ [] ∧
    ∀ c ∈ name, c.isAlphanum = true ∨ c = '_'

section WellFormed

variable {cs behind literal name rest : List Char}

theorem isName_iff :
    isName name = true ↔ name ≠ [] ∧ ∀ c ∈ name, c.isAlphanum = true ∨ c = '_' := by
  simp [isName, isNameChar]

/-- There is one way only to end a name at the first closing brace. -/
theorem append_closing_inj {name' rest' : List Char} (hname : closing ∉ name)
    (hname' : closing ∉ name') (h : name ++ closing :: rest = name' ++ closing :: rest') :
    name = name' ∧ rest = rest' := by
  induction name generalizing name' with
  | nil =>
    cases name' with
    | nil => exact ⟨rfl, (List.cons.inj h).2⟩
    | cons c name' => exact absurd (List.cons.inj h).1 fun heq => hname' (heq ▸ List.mem_cons_self)
  | cons c name ih =>
    cases name' with
    | nil => exact absurd (List.cons.inj h).1 fun heq => hname (heq ▸ List.mem_cons_self)
    | cons c' name' =>
      obtain ⟨rfl, htail⟩ := List.cons.inj h
      rw [List.mem_cons, not_or] at hname hname'
      obtain ⟨rfl, rfl⟩ := ih hname.2 hname'.2 htail
      exact ⟨rfl, rfl⟩

theorem startsNamed_iff (hname : closing ∉ name) :
    StartsNamed (name ++ closing :: rest) ↔ isName name = true := by
  rw [isName_iff]
  constructor
  · rintro ⟨name', rest', heq, hname', hplain⟩
    obtain ⟨rfl, -⟩ := append_closing_inj hname hname' heq
    exact hplain
  · intro hplain
    exact ⟨name, rest, rfl, hname, hplain⟩

theorem not_meets_of_isLiteral (h : IsLiteral cs) : ¬Meets cs behind := by
  intro hmeets
  cases hmeets with
  | first hopens => exact not_isLiteral_of_opens hopens h
  | later hopens _ _ => exact not_isLiteral_of_opens hopens h

/-- The marks of a text are the first one and those behind the first placeholder. -/
theorem meets_iff (h : Opens cs literal (name ++ closing :: rest)) (hname : closing ∉ name) :
    Meets cs behind ↔ behind = name ++ closing :: rest ∨ Meets rest behind := by
  constructor
  · intro hmeets
    cases hmeets with
    | first h' => exact .inl (h'.unique h).2
    | later h' hname' hrest =>
      obtain ⟨-, heq⟩ := h'.unique h
      obtain ⟨-, rfl⟩ := append_closing_inj hname' hname heq
      exact .inr hrest
  · rintro (rfl | hrest)
    · exact .first h
    · exact .later h hname hrest

/-- The pieces are in order exactly when each mark that is met opens a placeholder with a plain
name. -/
theorem fault?_ofChars_eq_none_iff (text : String) :
    fault? text (Pieces.ofChars cs) = none ↔ ∀ behind, Meets cs behind → StartsNamed behind := by
  induction cs using scan_induction with
  | plain cs h =>
    rw [Pieces.ofChars_of_isLiteral h]
    exact iff_of_true rfl fun behind hmeets => absurd hmeets (not_meets_of_isLiteral h)
  | unclosed cs before behind h hbehind =>
    rw [Pieces.ofChars_of_unclosed h hbehind]
    refine iff_of_false nofun fun hall => ?_
    obtain ⟨name, rest, rfl, -⟩ := hall behind (.first h)
    simp at hbehind
  | slot cs literal name rest h hname ih =>
    simp only [Pieces.ofChars_of_slot h hname, meets_iff h hname, forall_eq_or_imp,
      startsNamed_iff hname, ← ih, fault?]
    by_cases hplain : isName name = true <;> simp [hplain]

end WellFormed

/-! ## Cuts -/

/-- A placeholder and the plain text in front of it. -/
structure Slot where
  /-- the text behind the placeholder before -/
  literal : List Char
  /-- the name of the value -/
  name : String
  deriving DecidableEq, Repr

/-- The placeholder with a name, as it is written. -/
def source (name : String) : String :=
  "#\x7b" ++ name ++ "\x7d"

/-- The text with something in place of each placeholder. -/
def written (value : String → String) (slots : List Slot) (last : List Char) : String :=
  String.ofList (slots.flatMap (fun s => s.literal ++ (value s.name).toList) ++ last)

/-- The placeholders of `cs`, each at the first opening mark in what remains, and the text behind
the last of them, in which there is no mark. -/
inductive Splits : List Char → List Slot → List Char → Prop
  /-- a plain text -/
  | last {cs : List Char} (h : IsLiteral cs) : Splits cs [] cs
  /-- a placeholder, up to the first closing brace, and the placeholders behind it -/
  | slot {cs literal rest last : List Char} {name : String} {slots : List Slot}
    (h : Opens cs literal (name.toList ++ closing :: rest)) (hname : closing ∉ name.toList)
    (hrest : Splits rest slots last) : Splits cs (⟨literal, name⟩ :: slots) last

variable {text : String} {cs last : List Char} {slots : List Slot} {lookup : String → Option String}

theorem toList_written_cons (value : String → String) (s : Slot) (slots : List Slot)
    (last : List Char) : (written value (s :: slots) last).toList
      = s.literal ++ (value s.name).toList ++ (written value slots last).toList := by
  simp [written]

/-- A text is cut in one way only. -/
theorem Splits.unique {slots' : List Slot} {last' : List Char} (h : Splits cs slots last)
    (h' : Splits cs slots' last') : slots = slots' ∧ last = last' := by
  induction h generalizing slots' last' with
  | last h =>
    cases h' with
    | last _ => exact ⟨rfl, rfl⟩
    | slot hopens _ _ => exact absurd h (not_isLiteral_of_opens hopens)
  | slot h hname _ ih =>
    cases h' with
    | last hliteral => exact absurd hliteral (not_isLiteral_of_opens h)
    | slot h' hname' hrest' =>
      obtain ⟨rfl, hbehind⟩ := h.unique h'
      obtain ⟨hsame, rfl⟩ := append_closing_inj hname hname' hbehind
      obtain rfl := String.toList_inj.mp hsame
      obtain ⟨rfl, rfl⟩ := ih hrest'
      exact ⟨rfl, rfl⟩

/-- The parts make up the text. -/
theorem Splits.toList_written_source (h : Splits cs slots last) :
    (written source slots last).toList = cs := by
  induction h with
  | last h => simp [written]
  | slot h _ _ ih =>
    rw [toList_written_cons, ih, h.cut]
    simp [source, opening, closing]

theorem exists_splits (h : (Pieces.ofChars cs).isClosed = true) :
    ∃ slots last, Splits cs slots last := by
  induction cs using scan_induction with
  | plain cs hliteral => exact ⟨[], cs, .last hliteral⟩
  | unclosed cs before behind hopens hbehind =>
    rw [Pieces.ofChars_of_unclosed hopens hbehind] at h
    cases h
  | slot cs literal name rest hopens hname ih =>
    rw [Pieces.ofChars_of_slot hopens hname] at h
    obtain ⟨slots, last, hrest⟩ := ih h
    rw [← String.toList_ofList (l := name)] at hopens hname
    exact ⟨_, last, .slot hopens hname hrest⟩

theorem Splits.names_eq (h : Splits cs slots last) :
    (Pieces.ofChars cs).names.map String.ofList = slots.map Slot.name := by
  induction h with
  | last h => simp [Pieces.ofChars_of_isLiteral h, Pieces.names]
  | slot h hname _ ih => simp [Pieces.ofChars_of_slot h hname, Pieces.names, ih]

/-! ## Filling in -/

/-- Where each placeholder has a value, the values stand in their places. -/
theorem Splits.fill_eq {value : String → String} (h : Splits cs slots last)
    (hvalue : ∀ s ∈ slots, lookup s.name = some (value s.name)) :
    fill text lookup (Pieces.ofChars cs) = .ok (written value slots last).toList := by
  induction h with
  | last h => simp [Pieces.ofChars_of_isLiteral h, fill, written]
  | slot h hname _ ih =>
    obtain ⟨hfirst, hothers⟩ := List.forall_mem_cons.mp hvalue
    simp only [Pieces.ofChars_of_slot h hname, fill, String.ofList_toList, hfirst, ih hothers,
      toList_written_cons]

/-- The first placeholder without a value is the one that is named. -/
theorem Splits.fill_eq_error {front back : List Slot} {s : Slot} (h : Splits cs slots last)
    (hslots : slots = front ++ s :: back) (hfront : ∀ s' ∈ front, (lookup s'.name).isSome = true)
    (hs : lookup s.name = none) :
    fill text lookup (Pieces.ofChars cs) = .error (.unknownParam s.name text) := by
  induction h generalizing front with
  | last h => simp at hslots
  | slot h hname _ ih =>
    cases front with
    | nil =>
      obtain ⟨rfl, rfl⟩ := List.cons.inj hslots
      simp [Pieces.ofChars_of_slot h hname, fill, hs]
    | cons s' front =>
      obtain ⟨rfl, htail⟩ := List.cons.inj hslots
      obtain ⟨hfirst, hothers⟩ := List.forall_mem_cons.mp hfront
      obtain ⟨v, hv⟩ := Option.isSome_iff_exists.mp hfirst
      simp [Pieces.ofChars_of_slot h hname, fill, hv, ih htail hothers]

/-- Either each placeholder has a value, or there is a first one without. -/
theorem forall_isSome_or_first (lookup : String → Option String) (slots : List Slot) :
    (∀ s ∈ slots, (lookup s.name).isSome = true) ∨
      ∃ front s back, slots = front ++ s :: back ∧
        (∀ s' ∈ front, (lookup s'.name).isSome = true) ∧ lookup s.name = none := by
  cases hfind : slots.find? fun s => (lookup s.name).isNone with
  | none =>
    rw [List.find?_eq_none] at hfind
    refine .inl fun s hs => ?_
    have := hfind s hs
    simpa [Option.isSome_iff_ne_none] using this
  | some s =>
    obtain ⟨hs, front, back, hslots, hfront⟩ := List.find?_eq_some_iff_append.mp hfind
    refine .inr ⟨front, s, back, hslots, fun s' hs' => ?_, Option.isNone_iff_eq_none.mp hs⟩
    have := hfront s' hs'
    simpa [Option.isSome_iff_ne_none] using this

section Rendering

variable {t : Template}

theorem Splits.render_eq {value : String → String} (h : Splits t.text.toList slots last)
    (hvalue : ∀ s ∈ slots, lookup s.name = some (value s.name)) :
    t.render lookup = .ok (written value slots last) := by
  rw [render, pieces, h.fill_eq hvalue, Except.map, String.ofList_toList]

theorem Splits.render_eq_error {front back : List Slot} {s : Slot}
    (h : Splits t.text.toList slots last) (hslots : slots = front ++ s :: back)
    (hfront : ∀ s' ∈ front, (lookup s'.name).isSome = true) (hs : lookup s.name = none) :
    t.render lookup = .error (.unknownParam s.name t.text) := by
  rw [render, pieces, h.fill_eq_error hslots hfront hs, Except.map]

/-- Rendering succeeds exactly if each placeholder has a value. -/
theorem Splits.exists_render_iff (h : Splits t.text.toList slots last) :
    (∃ text, t.render lookup = .ok text) ↔ ∀ s ∈ slots, (lookup s.name).isSome = true := by
  constructor
  · rintro ⟨text, htext⟩
    rcases forall_isSome_or_first lookup slots with hall | ⟨front, s, back, hslots, hfront, hs⟩
    · exact hall
    · rw [h.render_eq_error hslots hfront hs] at htext
      cases htext
  · intro hall
    have hvalue : ∀ s ∈ slots, lookup s.name = some ((lookup s.name).getD "") := by
      intro s hs
      obtain ⟨v, hv⟩ := Option.isSome_iff_exists.mp (hall s hs)
      rw [hv, Option.getD_some]
    exact ⟨written (fun name => (lookup name).getD "") slots last, h.render_eq hvalue⟩

end Rendering

/-- What rendering makes of a template that is cut into `slots` and `last`. -/
structure RendersAs (t : Template) (slots : List Slot) (last : List Char) : Prop where
  /-- where each placeholder has a value, the text with the values in their places -/
  values : ∀ (lookup : String → Option String) (value : String → String),
    (∀ s ∈ slots, lookup s.name = some (value s.name)) →
      t.render lookup = .ok (written value slots last)
  /-- else a complaint about the first placeholder without a value -/
  unknown : ∀ (lookup : String → Option String) (front : List Slot) (s : Slot) (back : List Slot),
    slots = front ++ s :: back → (∀ s' ∈ front, (lookup s'.name).isSome = true) →
      lookup s.name = none → t.render lookup = .error (.unknownParam s.name t.text)
  /-- never a complaint about a mark that is not closed -/
  closed : ∀ (lookup : String → Option String) (template : String),
    t.render lookup ≠ .error (.unclosed template)
  /-- the text itself, where each placeholder stands for its own source -/
  source : (t.render fun name => some (source name)) = .ok t.text
  /-- something for a table exactly if each placeholder stands for the table -/
  table : ∀ table, (∃ s, t.renderFor table = .ok s) ↔ ∀ s ∈ slots, s.name = tableParam

theorem Splits.rendersAs {t : Template} (h : Splits t.text.toList slots last) :
    t.RendersAs slots last := by
  constructor
  case values => exact fun lookup value => h.render_eq
  case unknown => exact fun lookup front s back => h.render_eq_error
  case closed =>
    intro lookup template
    rcases forall_isSome_or_first lookup slots with hall | ⟨front, s, back, hslots, hfront, hs⟩
    · obtain ⟨text, htext⟩ := h.exists_render_iff.mpr hall
      simp [htext]
    · simp [h.render_eq_error hslots hfront hs]
  case source =>
    rw [h.render_eq fun _ _ => rfl, String.toList_inj.mp h.toList_written_source]
  case table =>
    intro table
    rw [renderFor, h.exists_render_iff]
    refine forall₂_congr fun s _ => ?_
    by_cases hs : s.name = tableParam <;> simp [hs]

/-- **Templates.** A text is a template exactly when it is not blank and each opening mark that is
met from left to right is followed by a first closing brace behind a plain name. A template is cut
in one way only, its parameters are the names of the cut, and rendering it is filling in the cut. -/
theorem parse_splits (text : String) :
    (∀ t, parse text = .ok t ↔
      (isBlankText text = false ∧ ∀ behind, Meets text.toList behind → StartsNamed behind) ∧
        t = ⟨text⟩) ∧
    ∀ t, parse text = .ok t → ∃ slots last, Splits text.toList slots last ∧
      (∀ slots' last', Splits text.toList slots' last' → slots' = slots ∧ last' = last) ∧
      text = written source slots last ∧
      t.params = slots.map Slot.name ∧
      t.RendersAs slots last := by
  have hwell : IsWellFormed text ↔
      isBlankText text = false ∧ ∀ behind, Meets text.toList behind → StartsNamed behind := by
    rw [← fault?_ofChars_eq_none_iff text, fault?_eq_none_iff]
    exact ⟨fun h => ⟨h.filled, h.closed, h.named⟩, fun h => ⟨h.1, h.2.1, h.2.2⟩⟩
  constructor
  · intro t
    rw [parse_eq_ok_iff, hwell]
  · intro t ht
    obtain ⟨h, rfl⟩ := parse_eq_ok_iff.mp ht
    obtain ⟨slots, last, hsplits⟩ := exists_splits h.closed
    refine ⟨slots, last, hsplits, fun slots' last' h' => h'.unique hsplits, ?_, ?_,
      hsplits.rendersAs⟩
    · exact (String.toList_inj.mp hsplits.toList_written_source).symm
    · rw [params, pieces, fault?_eq_none_iff.mpr ⟨h.closed, h.named⟩]
      exact hsplits.names_eq

/-- A number sign in front of a mark is plain text, and a value with a mark in it stays as it is. -/
theorem parse_splits_nested :
    parse "##\x7ba\x7d" = .ok ⟨"##\x7ba\x7d"⟩ ∧
      (Template.mk "##\x7ba\x7d").params = ["a"] ∧
      ((Template.mk "##\x7ba\x7d").render fun _ => some "#\x7bb\x7d") = .ok "##\x7bb\x7d" := by
  have hparse : parse "##\x7ba\x7d" = .ok ⟨"##\x7ba\x7d"⟩ := rfl
  obtain ⟨slots, last, -, hunique, -, hparams, hrenders⟩ := (parse_splits _).2 _ hparse
  have hcut : Splits "##\x7ba\x7d".toList [⟨['#'], "a"⟩] [] := by
    have hfront : ∀ w, '#' :: "#\x7ba\x7d".toList ≠ opening ++ w := by
      intro w h
      simp [opening] at h
    have hopens := (opens_cons_iff hfront).mpr (opens_mark ("a".toList ++ [closing]))
    exact .slot hopens (by decide) (.last fun u w h => by simp [opening] at h)
  obtain ⟨rfl, rfl⟩ := hunique _ _ hcut
  exact ⟨hparse, hparams, hrenders.values _ (fun _ => "#\x7bb\x7d") fun _ _ => rfl⟩

end Template

end AccountHistory
