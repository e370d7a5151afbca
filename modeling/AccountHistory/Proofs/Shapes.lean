import AccountHistory.Json.Reader

/-!
# Reading by shapes

A reader that knows which fields it wants drops the others while it reads. What it drops it looks
at less closely: half a pair of surrogates is no character, but in a string that is dropped nobody
asks for one. In the other direction nothing is lost. Whatever document is read as a whole is read
by every shape, up to the same place (`ReadsAlike`), and what comes of it is the same but for what
is dropped (`Agrees`).

The one place where the two readings take steps of different length is an escape that needs a
partner: a string that is kept takes both at once, a dropped one takes one after the other
(`escape?_dropped`).
-/

namespace AccountHistory.Json

/-! ## Strings -/

variable {seen cs ds rest : List Char} {s : String} {e : Char} {used n : Nat}

theorem readString_quote (b : Bool) (seen cs : List Char) :
    readString b seen ('"' :: cs) = some (String.ofList seen.reverse, cs) := by
  rw [readString, if_pos rfl]

theorem readString_escape {b : Bool} (h : escape? b cs = some (e, used)) (seen : List Char) :
    readString b seen ('\\' :: cs) = readString b (e :: seen) (cs.drop used) := by
  rw [readString, if_neg (by decide), if_pos rfl, h]

theorem readString_plain {b : Bool} {c : Char} (hquote : c ≠ '"') (hslash : c ≠ '\\')
    (hcontrol : ¬c.toNat < 0x20) (seen cs : List Char) :
    readString b seen (c :: cs) = readString b (c :: seen) cs := by
  rw [readString, if_neg hquote, if_neg hslash, if_neg hcontrol]

theorem escape?_unit {b : Bool} : escape? b ('u' :: cs) =
    (if b then unicodeEscape? cs else droppedEscape? cs).map fun (e, used) => (e, used + 1) := by
  rw [escape?, if_pos rfl]

theorem droppedEscape?_of_codeUnit? (h : codeUnit? cs = some n) :
    ∃ e, droppedEscape? cs = some (e, 4) := by
  rw [droppedEscape?, h]
  exact ⟨_, rfl⟩

/-- An escape for one or two code units. -/
theorem unicodeEscape?_cases (h : unicodeEscape? cs = some (e, used)) :
    (∃ n, codeUnit? cs = some n) ∧
      (used = 4 ∨ used = 10 ∧ ∃ r m, cs.drop 4 = '\\' :: 'u' :: r ∧ codeUnit? r = some m) := by
  rw [unicodeEscape?] at h
  split at h
  · cases h
  case h_2 n hn =>
    refine ⟨⟨n, hn⟩, ?_⟩
    split at h
    · cases h
    · split at h
      · split at h
        case h_1 r hr =>
          split at h
          · cases h
          case h_2 m hm =>
            split at h
            · obtain ⟨-, rfl⟩ := Prod.mk.inj (Option.some.inj h)
              exact .inr ⟨rfl, r, m, hr, hm⟩
            · cases h
        · cases h
      · obtain ⟨-, rfl⟩ := Prod.mk.inj (Option.some.inj h)
        exact .inl rfl

/-- An escape that writes a text is one escape in a string that is dropped, or, if it needs a
partner, two of them. -/
theorem escape?_dropped (h : escape? true cs = some (e, used)) :
    (∃ e', escape? false cs = some (e', used)) ∨
      ∃ e₁ e₂ r, escape? false cs = some (e₁, 5) ∧ cs.drop 5 = '\\' :: 'u' :: r ∧
        escape? false ('u' :: r) = some (e₂, 5) ∧ cs.drop used = r.drop 4 := by
  cases cs with
  | nil => cases h
  | cons c cs =>
    by_cases hc : c = 'u'
    · subst hc
      rw [escape?_unit, if_pos rfl] at h
      obtain ⟨⟨e, k⟩, hunit, hused⟩ := Option.map_eq_some_iff.mp h
      obtain ⟨-, rfl⟩ := Prod.mk.inj hused
      obtain ⟨⟨n, hn⟩, hwidth⟩ := unicodeEscape?_cases hunit
      obtain ⟨e₁, h₁⟩ := droppedEscape?_of_codeUnit? hn
      have hfirst : escape? false ('u' :: cs) = some (e₁, 5) := by
        rw [escape?_unit, if_neg Bool.false_ne_true, h₁]
        rfl
      obtain rfl | ⟨rfl, r, m, hr, hm⟩ := hwidth
      · exact .inl ⟨e₁, hfirst⟩
      · obtain ⟨e₂, h₂⟩ := droppedEscape?_of_codeUnit? hm
        refine .inr ⟨e₁, e₂, r, hfirst, hr, ?_, ?_⟩
        · rw [escape?_unit, if_neg Bool.false_ne_true, h₂]
          rfl
        · have hdrop : cs.drop (4 + 6) = r.drop 4 := by
            rw [← List.drop_drop, hr]
            rfl
          exact hdrop
    · rw [escape?, if_neg hc] at h
      exact .inl ⟨e, by rw [escape?, if_neg hc, h]⟩

/-- A string that writes a text ends at the same place if it is dropped. -/
theorem exists_readString_dropped (h : readString true seen cs = some (s, rest))
    (seen' : List Char) : ∃ s', readString false seen' cs = some (s', rest) := by
  fun_induction readString true seen cs generalizing s rest seen' with
  | case1 => cases h
  | case2 seen cs =>
    obtain ⟨-, rfl⟩ := Prod.mk.inj (Option.some.inj h)
    exact ⟨_, readString_quote _ _ _⟩
  | case3 => cases h
  | case4 seen cs e used hescape _ ih =>
    obtain ⟨e', he⟩ | ⟨e₁, e₂, r, h₁, hr, h₂, hdrop⟩ := escape?_dropped hescape
    · rw [readString_escape he]
      exact ih h _
    · rw [hdrop] at ih h
      rw [readString_escape h₁, hr, readString_escape h₂]
      exact ih h _
  | case5 => cases h
  | case6 seen c cs hquote hslash hcontrol ih =>
    rw [readString_plain hquote hslash hcontrol]
    exact ih h _

/-- A string that writes a text is read by any shape, and to the same text unless it is dropped. -/
theorem exists_readString (b : Bool) (h : readString true [] cs = some (s, rest)) :
    ∃ s', readString b [] cs = some (s', rest) ∧ (b = true → s' = s) := by
  cases b with
  | false =>
    obtain ⟨s', hs'⟩ := exists_readString_dropped h []
    exact ⟨s', hs', nofun⟩
  | true => exact ⟨s, h, fun _ => rfl⟩

/-! ## Values -/

mutual

/-- What a shape leaves of a value. -/
inductive Agrees : Shape → Json → Json → Prop
  /-- all is taken -/
  | taken (v : Json) : Agrees .taken v v
  /-- nothing is asked for -/
  | dropped (v w : Json) : Agrees .dropped v w
  /-- a value without parts is taken -/
  | plain (fields : List (String × Shape)) (v : Json) : Agrees (.record fields) v v
  /-- the items of an array are taken in their shapes -/
  | arr {fields : List (String × Shape)} {vs ws : List Json}
    (h : ItemsAgree (.record fields) vs ws) : Agrees (.record fields) (.arr vs) (.arr ws)
  /-- the fields of an object are taken in their shapes -/
  | obj {fields : List (String × Shape)} {fs gs : List (String × Json)}
    (h : FieldsAgree (.record fields) fs gs) : Agrees (.record fields) (.obj fs) (.obj gs)

/-- What a shape leaves of the items of an array. -/
inductive ItemsAgree : Shape → List Json → List Json → Prop
  /-- no items -/
  | nil (shape : Shape) : ItemsAgree shape [] []
  /-- the first one and the others -/
  | cons {shape : Shape} {v w : Json} {vs ws : List Json} (h : Agrees shape.item.1 v w)
    (hrest : ItemsAgree shape.item.2 vs ws) : ItemsAgree shape (v :: vs) (w :: ws)

/-- What a shape leaves of the fields of an object. -/
inductive FieldsAgree : Shape → List (String × Json) → List (String × Json) → Prop
  /-- no fields -/
  | nil (shape : Shape) : FieldsAgree shape [] []
  /-- the first one, of the same name, and the others -/
  | cons {shape : Shape} {k l : String} {v w : Json} {fs gs : List (String × Json)}
    (hname : shape.needsText = true → l = k) (h : Agrees (shape.field l) v w)
    (hrest : FieldsAgree shape fs gs) : FieldsAgree shape ((k, v) :: fs) ((l, w) :: gs)

end

theorem Agrees.refl (shape : Shape) (v : Json) : Agrees shape v v := by
  cases shape with
  | taken => exact .taken v
  | dropped => exact .dropped v v
  | record fields => exact .plain fields v

theorem Agrees.eq {v w : Json} (h : Agrees .taken v w) : v = w := by
  cases h
  rfl

theorem ItemsAgree.eq {vs ws : List Json} (h : ItemsAgree .taken vs ws) : vs = ws := by
  induction vs generalizing ws with
  | nil =>
    cases h
    rfl
  | cons v vs ih =>
    cases h with
    | cons h hrest => rw [h.eq, ih hrest]

theorem FieldsAgree.eq {fs gs : List (String × Json)} (h : FieldsAgree .taken fs gs) : fs = gs := by
  induction fs generalizing gs with
  | nil =>
    cases h
    rfl
  | cons f fs ih =>
    cases h with
    | cons hname h hrest => rw [hname rfl, h.eq, ih hrest]

theorem ItemsAgree.agrees {shape : Shape} {vs ws : List Json} (h : ItemsAgree shape vs ws) :
    Agrees shape (.arr vs) (.arr ws) := by
  cases shape with
  | taken => rw [h.eq]; exact .taken _
  | dropped => exact .dropped _ _
  | record fields => exact .arr h

theorem FieldsAgree.agrees {shape : Shape} {fs gs : List (String × Json)}
    (h : FieldsAgree shape fs gs) : Agrees shape (.obj fs) (.obj gs) := by
  cases shape with
  | taken => rw [h.eq]; exact .taken _
  | dropped => exact .dropped _ _
  | record fields => exact .obj h

/-- Of an array whose items are all taken nothing is dropped. -/
theorem ItemsAgree.eq_of_forall {fields : List (String × Shape)} {vs ws : List Json}
    (hfields : ∀ f ∈ fields, f.2 = .taken) (h : ItemsAgree (.record fields) vs ws) : vs = ws := by
  induction vs generalizing fields ws with
  | nil =>
    cases h
    rfl
  | cons v vs ih =>
    cases h with
    | cons h hrest =>
      cases fields with
      | nil => rw [Agrees.eq h, ItemsAgree.eq hrest]
      | cons f fields =>
        obtain ⟨hf, hfields⟩ := List.forall_mem_cons.mp hfields
        rw [Shape.item, hf] at h
        rw [h.eq, ih hfields hrest]

/-- The fields of a name that is taken are not changed. -/
theorem FieldsAgree.filter_eq {fields : List (String × Shape)} {fs gs : List (String × Json)}
    {name : String} (hname : (Shape.record fields).field name = .taken)
    (h : FieldsAgree (.record fields) fs gs) :
    (fs.filter fun f => f.1 == name) = gs.filter fun f => f.1 == name := by
  induction fs generalizing gs with
  | nil =>
    cases h
    rfl
  | cons f fs ih =>
    obtain ⟨k, v⟩ := f
    cases h with
    | cons hsame h hrest =>
      obtain rfl := (hsame rfl).symm
      rw [List.filter_cons, List.filter_cons, ih hrest]
      split
      case isTrue heq =>
        obtain rfl : k = name := eq_of_beq heq
        rw [hname] at h
        rw [h.eq]
      case isFalse => rfl

/-- Whatever is read in so many steps if all is taken is read by any shape, up to the same place. -/
structure ReadsAlike (fuel : Nat) : Prop where
  /-- a value -/
  value (shape : Shape) {cs rest : List Char} {v : Json} :
    readValue fuel .taken cs = some (v, rest) →
      ∃ w, readValue fuel shape cs = some (w, rest) ∧ Agrees shape v w
  /-- the items of an array -/
  items (shape : Shape) {cs rest : List Char} {vs : List Json} :
    readItems fuel .taken cs = some (vs, rest) →
      ∃ ws, readItems fuel shape cs = some (ws, rest) ∧ ItemsAgree shape vs ws
  /-- the fields of an object -/
  fields (shape : Shape) {cs rest : List Char} {fs : List (String × Json)} :
    readFields fuel .taken cs = some (fs, rest) →
      ∃ gs, readFields fuel shape cs = some (gs, rest) ∧ FieldsAgree shape fs gs

namespace ReadsAlike

variable {fuel : Nat} (shape : Shape)

theorem value_succ (ih : ReadsAlike fuel) {v : Json}
    (h : readValue (fuel + 1) .taken cs = some (v, rest)) :
    ∃ w, readValue (fuel + 1) shape cs = some (w, rest) ∧ Agrees shape v w := by
  rw [readValue] at h ⊢
  generalize skipGap cs = ds at h ⊢
  split at h
  case h_1 r =>
    obtain ⟨⟨s, r'⟩, hread, heq⟩ := Option.map_eq_some_iff.mp h
    obtain ⟨rfl, rfl⟩ := Prod.mk.inj heq
    obtain ⟨s', hread', hsame⟩ := exists_readString shape.needsText hread
    refine ⟨.str s', by rw [hread', Option.map_some], ?_⟩
    cases shape with
    | taken => rw [hsame rfl]; exact .taken _
    | dropped => exact .dropped _ _
    | record fields => rw [hsame rfl]; exact .plain fields _
  case h_2 r =>
    generalize skipGap r = r at h ⊢
    split at h
    · obtain ⟨rfl, rfl⟩ := Prod.mk.inj (Option.some.inj h)
      exact ⟨_, rfl, .refl _ _⟩
    · obtain ⟨⟨vs, r'⟩, hread, heq⟩ := Option.map_eq_some_iff.mp h
      obtain ⟨rfl, rfl⟩ := Prod.mk.inj heq
      obtain ⟨ws, hread', hagree⟩ := ih.items shape hread
      exact ⟨.arr ws, by rw [hread', Option.map_some], hagree.agrees⟩
  case h_3 r =>
    generalize skipGap r = r at h ⊢
    split at h
    · obtain ⟨rfl, rfl⟩ := Prod.mk.inj (Option.some.inj h)
      exact ⟨_, rfl, .refl _ _⟩
    · obtain ⟨⟨fs, r'⟩, hread, heq⟩ := Option.map_eq_some_iff.mp h
      obtain ⟨rfl, rfl⟩ := Prod.mk.inj heq
      obtain ⟨gs, hread', hagree⟩ := ih.fields shape hread
      exact ⟨.obj gs, by rw [hread', Option.map_some], hagree.agrees⟩
  all_goals exact ⟨v, h, .refl _ _⟩

theorem items_succ (ih : ReadsAlike fuel) {vs : List Json}
    (h : readItems (fuel + 1) .taken cs = some (vs, rest)) :
    ∃ ws, readItems (fuel + 1) shape cs = some (ws, rest) ∧ ItemsAgree shape vs ws := by
  rw [readItems] at h ⊢
  obtain ⟨⟨v, r⟩, hv, h⟩ := Option.bind_eq_some_iff.mp h
  obtain ⟨w, hw, hagrees⟩ := ih.value shape.item.1 hv
  rw [hw, Option.bind_eq_bind, Option.bind_some]
  dsimp only at h ⊢
  generalize skipGap r = r at h ⊢
  split at h
  case h_1 r' =>
    obtain ⟨⟨vs', r''⟩, hvs, h⟩ := Option.bind_eq_some_iff.mp h
    obtain ⟨rfl, rfl⟩ := Prod.mk.inj (Option.some.inj h)
    obtain ⟨ws, hws, hrest⟩ := ih.items shape.item.2 hvs
    exact ⟨w :: ws, by rw [hws]; rfl, .cons hagrees hrest⟩
  case h_2 r' =>
    obtain ⟨rfl, rfl⟩ := Prod.mk.inj (Option.some.inj h)
    exact ⟨[w], rfl, .cons hagrees (.nil _)⟩
  case h_3 => cases h

theorem fields_succ (ih : ReadsAlike fuel) {fs : List (String × Json)}
    (h : readFields (fuel + 1) .taken cs = some (fs, rest)) :
    ∃ gs, readFields (fuel + 1) shape cs = some (gs, rest) ∧ FieldsAgree shape fs gs := by
  rw [readFields] at h ⊢
  generalize skipGap cs = ds at h ⊢
  split at h
  case h_2 => cases h
  case h_1 r =>
    obtain ⟨⟨k, r⟩, hk, h⟩ := Option.bind_eq_some_iff.mp h
    obtain ⟨l, hl, hname⟩ := exists_readString shape.needsText hk
    rw [hl, Option.bind_eq_bind, Option.bind_some]
    dsimp only at h ⊢
    generalize skipGap r = r at h ⊢
    split at h
    case h_2 => cases h
    case h_1 r =>
      obtain ⟨⟨v, r⟩, hv, h⟩ := Option.bind_eq_some_iff.mp h
      obtain ⟨w, hw, hagrees⟩ := ih.value (shape.field l) hv
      rw [hw, Option.bind_eq_bind, Option.bind_some]
      dsimp only at h ⊢
      generalize skipGap r = r at h ⊢
      split at h
      case h_1 r =>
        obtain ⟨⟨fs', r'⟩, hfs, h⟩ := Option.bind_eq_some_iff.mp h
        obtain ⟨rfl, rfl⟩ := Prod.mk.inj (Option.some.inj h)
        obtain ⟨gs, hgs, hrest⟩ := ih.fields shape hfs
        exact ⟨(l, w) :: gs, by rw [hgs]; rfl, .cons hname hagrees hrest⟩
      case h_2 r =>
        obtain ⟨rfl, rfl⟩ := Prod.mk.inj (Option.some.inj h)
        exact ⟨[(l, w)], rfl, .cons hname hagrees (.nil _)⟩
      case h_3 => cases h

end ReadsAlike

theorem readsAlike (fuel : Nat) : ReadsAlike fuel := by
  induction fuel with
  | zero => exact ⟨nofun, nofun, nofun⟩
  | succ fuel ih =>
    exact ⟨fun shape => ih.value_succ shape, fun shape => ih.items_succ shape,
      fun shape => ih.fields_succ shape⟩

/-- **Shapes.** A document that is read if all of it is taken is read by every shape, and the value
is the same but for what the shape drops. -/
theorem exists_parseAs? {text : String} {v : Json} (h : parse? text = some v) (shape : Shape) :
    ∃ w, parseAs? shape text = some w ∧ Agrees shape v w := by
  rw [parse?, parseAs?] at h
  split at h
  case h_2 => cases h
  case h_1 v' rest hread =>
    obtain ⟨hend, heq⟩ := Option.ite_none_right_eq_some.mp h
    obtain rfl := Option.some.inj heq
    obtain ⟨w, hread', hagrees⟩ := (readsAlike _).value shape hread
    exact ⟨w, by rw [parseAs?, hread']; exact if_pos hend, hagrees⟩

end AccountHistory.Json
