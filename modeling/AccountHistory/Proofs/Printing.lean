import Mathlib.Data.List.Induction
import AccountHistory.Json.Printer
import AccountHistory.Json.Reader
import AccountHistory.Proofs.Numerals

/-!
# Objects that are written and read

An object of integers and nulls, under names that need no escape, is read back from its text as it
was written: in its own order of fields, or sorted by name (`parse?_text_obj`).

* A number ends where its digits end, so what a reader does with a value depends on what follows.
  `IsReadable` therefore asks for every rest that may stand behind a value inside an object
  (`IsEnd`), and for every fuel but none at all.
* The characters of an object are a list with its fields as parts (`fieldsChars`), and the reader of
  fields goes along this list. A field costs one unit of fuel and writes at least one character,
  so the fuel that a document starts with is enough.
-/

namespace AccountHistory

/-! ## Leading digits -/

/-- A number other than zero has no zero in front. -/
theorem head?_toDigits_ne {n : Nat} (hn : n ≠ 0) : (Nat.toDigits 10 n).head? ≠ some '0' := by
  induction n using Nat.strongRecOn with
  | ind n ih =>
    by_cases hlt : n < 10
    · rw [Nat.toDigits_of_lt_base hlt]
      have hdigits : ∀ d < 10, d ≠ 0 → d.digitChar ≠ '0' := by decide
      simpa using hdigits n hlt hn
    · rw [Nat.toDigits_of_base_le (by decide) (by omega)]
      have hshorter := ih (n / 10) (by omega) (by omega)
      obtain ⟨d, ds, hds⟩ :=
        List.exists_cons_of_ne_nil (Nat.toDigits_ne_nil (b := 10) (n := n / 10))
      rw [hds] at hshorter ⊢
      exact hshorter

namespace Json

variable {cs ds rest : List Char} {n : Int} {k : Nat} {order : FieldOrder}

/-! ## Numbers -/

/-- What stands behind a value inside an object. -/
def IsEnd (rest : List Char) : Prop :=
  ∃ r, rest = ',' :: r ∨ rest = '}' :: r

theorem digitsValue_eq (k : Nat) (ds : List Char) :
    digitsValue k ds = Nat.ofDigitChars 10 ds k := by
  induction ds generalizing k with
  | nil => rfl
  | cons d ds ih =>
    rw [Nat.ofDigitChars_cons, ← ih, digitsValue, List.foldl_cons, ← digitsValue, Nat.mul_comm]

theorem readDigits_append (hds : ∀ d ∈ ds, isDigit d = true) (hne : ds ≠ [])
    (hrest : IsEnd rest) : readDigits (ds ++ rest) = some (ds, rest) := by
  have hstop : rest.takeWhile isDigit = [] ∧ rest.dropWhile isDigit = rest := by
    obtain ⟨r, rfl | rfl⟩ := hrest <;> exact ⟨rfl, rfl⟩
  rw [readDigits, List.takeWhile_append_of_pos hds, List.dropWhile_append_of_pos hds, hstop.1,
    hstop.2, List.append_nil, if_neg (by simpa using hne)]

theorem readFraction_of_isEnd (hrest : IsEnd rest) : readFraction rest = some (none, rest) := by
  obtain ⟨r, rfl | rfl⟩ := hrest <;> rfl

theorem readExponent_of_isEnd (hrest : IsEnd rest) : readExponent rest = some (none, rest) := by
  obtain ⟨r, rfl | rfl⟩ := hrest <;> rfl

/-- A number whose sign has been read. -/
def readUnsigned (negative : Bool) (cs : List Char) : Option (Json × List Char) := do
  let (whole, cs) ← readDigits cs
  if 1 < whole.length ∧ whole.head? = some '0' then none
  let (fraction, cs) ← readFraction cs
  let (exponent, cs) ← readExponent cs
  return ((Written.mk negative whole fraction exponent).value, cs)

theorem readNumber_minus (cs : List Char) : readNumber ('-' :: cs) = readUnsigned true cs :=
  rfl

theorem readNumber_of_isDigit {d : Char} (hd : isDigit d = true) (cs : List Char) :
    readNumber (d :: cs) = readUnsigned false (d :: cs) := by
  rw [readNumber]
  · rfl
  · intro r heq
    obtain ⟨rfl, -⟩ := List.cons.inj heq
    simp [isDigit] at hd

/-- Digits without a zero in front are read as a number without fraction and exponent. -/
theorem readUnsigned_append (negative : Bool) (hds : ∀ d ∈ ds, isDigit d = true) (hne : ds ≠ [])
    (hlead : 1 < ds.length → ds.head? ≠ some '0') (hrest : IsEnd rest) :
    readUnsigned negative (ds ++ rest)
      = some ((Written.mk negative ds none none).value, rest) := by
  have hguard : ¬(1 < ds.length ∧ ds.head? = some '0') := fun h => hlead h.1 h.2
  rw [readUnsigned, readDigits_append hds hne hrest]
  simp only [Option.bind_eq_bind, Option.bind_some, if_neg hguard, readFraction_of_isEnd hrest,
    readExponent_of_isEnd hrest]
  rfl

theorem value_of_digits (negative : Bool) (hvalue : digitsValue 0 ds = k)
    (hgreatest : k ≤ Width.word64.greatest.toNat)
    (hnegative : negative = true → k ≠ 0 ∧ k ≤ 9223372036854775808) :
    (Written.mk negative ds none none).value = .int (if negative then -(k : Int) else k) := by
  have hin : (!(negative && (k == 0 || decide (k > 9223372036854775808)))) = true := by
    cases negative with
    | false => rfl
    | true => simp [hnegative rfl]
  simp only [Written.value, hvalue]
  simp [hin, hgreatest]

/-- The usual form of a number is read as these digits behind the sign. -/
theorem readUnsigned_toString (negative : Bool) (k : Nat) (hrest : IsEnd rest) :
    readUnsigned negative ((toString k).toList ++ rest)
      = some ((Written.mk negative (toString k).toList none none).value, rest) := by
  have hdecimal := isDecimal_toString k
  refine readUnsigned_append negative hdecimal.digits hdecimal.nonempty ?_ hrest
  rw [Nat.toString_eq_repr, Nat.toList_repr]
  intro hlength
  refine head?_toDigits_ne ?_
  rintro rfl
  exact absurd hlength (by decide)

theorem digitsValue_toString (k : Nat) : digitsValue 0 (toString k).toList = k := by
  rw [digitsValue_eq, (isDecimal_toString k).value]

/-- The usual form of a number of 64 bits is read as the number. -/
theorem readNumber_toString (hleast : Width.int64.least ≤ n) (hgreatest : n ≤ Width.word64.greatest)
    (hrest : IsEnd rest) : readNumber ((toString n).toList ++ rest) = some (.int n, rest) := by
  rw [Int.toString_eq_repr]
  cases n with
  | ofNat k =>
    have hk : k ≤ Width.word64.greatest.toNat := by
      rw [Int.ofNat_eq_natCast] at hgreatest
      omega
    have hdigits := readUnsigned_toString false k hrest
    rw [value_of_digits false (digitsValue_toString k) hk nofun] at hdigits
    obtain ⟨d, ds, hds⟩ := List.exists_cons_of_ne_nil (isDecimal_toString k).nonempty
    have hd := (isDecimal_toString k).digits d (hds ▸ .head ds)
    change readNumber ((toString k).toList ++ rest) = _
    rw [hds, List.cons_append] at hdigits ⊢
    rw [readNumber_of_isDigit hd, hdigits]
    rfl
  | negSucc k =>
    have hk : k + 1 ≠ 0 ∧ k + 1 ≤ 9223372036854775808 := by
      simp only [Width.int64] at hleast
      omega
    have hk' : k + 1 ≤ Width.word64.greatest.toNat := by
      simp only [Width.word64]
      omega
    have hrepr : (Int.negSucc k).repr.toList = '-' :: (toString (k + 1)).toList := by
      simp [Int.repr]
    rw [hrepr, List.cons_append, readNumber_minus, readUnsigned_toString true (k + 1) hrest,
      value_of_digits true (digitsValue_toString (k + 1)) hk' fun _ => hk]
    rfl

/-! ## Values inside objects -/

/-- The text of the value is read as the value where something follows inside an object. -/
def IsReadable (order : FieldOrder) (v : Json) : Prop :=
  ∀ fuel rest, IsEnd rest →
    readValue (fuel + 1) .taken ((text order v).toList ++ rest) = some (v, rest)

theorem isReadable_null (order : FieldOrder) : IsReadable order .null := by
  intro fuel rest _
  rw [text]
  rfl

/-- A value that begins like a number is read as one. -/
theorem readValue_number {d : Char} (hd : isDigit d = true ∨ d = '+' ∨ d = '-') (fuel : Nat)
    (shape : Shape) (cs : List Char) :
    readValue (fuel + 1) shape (d :: cs) = readNumber (d :: cs) := by
  have hstart : ∀ c ∈ [' ', '\n', '\t', '\r', '"', '[', '{', 't', 'f', 'n'], d ≠ c := by
    have hothers : ∀ c ∈ [' ', '\n', '\t', '\r', '"', '[', '{', 't', 'f', 'n'],
        ¬(isDigit c = true ∨ c = '+' ∨ c = '-') := by simp [isDigit]
    rintro c hc rfl
    exact hothers d hc hd
  have hgap : skipGap (d :: cs) = d :: cs := by
    rw [skipGap, List.dropWhile_cons_of_neg]
    simp [isGap, hstart]
  rw [readValue, hgap]
  split
  case h_7 => rfl
  all_goals
    rename_i heq
    exact absurd (List.cons.inj heq).1 (hstart _ (by simp))

theorem isReadable_int (order : FieldOrder) (hleast : Width.int64.least ≤ n)
    (hgreatest : n ≤ Width.word64.greatest) : IsReadable order (.int n) := by
  intro fuel rest hrest
  rw [text, ← readNumber_toString hleast hgreatest hrest]
  have hwrites := (Width.numeral_toString (w := ⟨n, n⟩) (Int.le_refl n) (Int.le_refl n)).written
  obtain ⟨d, ds, hds⟩ := List.exists_cons_of_ne_nil hwrites.ne_nil
  rw [hds, List.cons_append]
  exact readValue_number (hwrites.mem (hds ▸ .head ds)) fuel _ _

/-! ## Names -/

/-- The character is written as it stands. -/
def IsPlainChar (c : Char) : Prop :=
  c ≠ '"' ∧ c ≠ '\\' ∧ 0x20 ≤ c.toNat

/-- The name is written as it stands. -/
def IsPlainName (name : String) : Prop :=
  ∀ c ∈ name.toList, IsPlainChar c

theorem stringChar_eq {c : Char} (h : IsPlainChar c) : stringChar c = [c] := by
  obtain ⟨hquote, hslash, hcontrol⟩ := h
  have hshort : ∀ d ∈ ['\x08', '\x0c', '\n', '\r', '\t'], c ≠ d := by
    have hlow : ∀ d ∈ ['\x08', '\x0c', '\n', '\r', '\t'], ¬0x20 ≤ d.toNat := by simp
    rintro d hd rfl
    exact hlow c hd hcontrol
  have hbelow : ¬c.toNat < 0x10 ∧ ¬c.toNat < 0x20 := by omega
  simp [stringChar, hquote, hslash, hshort, hbelow]

theorem toList_stringText {name : String} (h : IsPlainName name) :
    (stringText name).toList = '"' :: (name.toList ++ ['"']) := by
  have hchars : name.toList.flatMap stringChar = name.toList := by
    rw [List.flatMap_def, List.map_congr_left fun c hc => stringChar_eq (h c hc),
      ← List.flatMap_def, List.flatMap_singleton']
  rw [stringText, String.toList_ofList, hchars]

theorem readString_append {b : Bool} (hcs : ∀ c ∈ cs, IsPlainChar c) (seen rest : List Char) :
    readString b seen (cs ++ '"' :: rest) = some (String.ofList (seen.reverse ++ cs), rest) := by
  induction cs generalizing seen with
  | nil => rw [List.nil_append, readString, if_pos rfl, List.append_nil]
  | cons c cs ih =>
    obtain ⟨hquote, hslash, hcontrol⟩ := hcs c (.head cs)
    rw [List.cons_append, readString, if_neg hquote, if_neg hslash, if_neg (by omega),
      ih fun d hd => hcs d (.tail c hd)]
    simp

/-! ## Objects -/

/-- The fields in the order in which they are written. -/
def FieldOrder.arrange {α : Type} : FieldOrder → List (String × α) → List (String × α)
  | .asWritten, fields => fields
  | .byName, fields => sortFields fields

/-- The characters of a field whose name is plain. -/
def fieldChars (order : FieldOrder) (f : String × Json) : List Char :=
  '"' :: (f.1.toList ++ '"' :: ':' :: (text order f.2).toList)

/-- The characters of the fields of an object. -/
def fieldsChars (order : FieldOrder) (fields : List (String × Json)) : List Char :=
  [','].intercalate (fields.map (fieldChars order))

theorem fieldTexts_eq (order : FieldOrder) (fields : List (String × Json)) :
    fieldTexts order fields = fields.map fun f => (f.1, text order f.2) := by
  induction fields with
  | nil => rfl
  | cons f fields ih => rw [fieldTexts, ih, List.map_cons]

theorem putSorted_map {α β : Type} (g : α → β) (key : String) (a : α) (fields : List (String × α)) :
    putSorted key (g a) (fields.map fun f => (f.1, g f.2))
      = (putSorted key a fields).map fun f => (f.1, g f.2) := by
  induction fields with
  | nil => rfl
  | cons f fields ih =>
    rw [List.map_cons, putSorted, putSorted]
    split
    · rfl
    · split
      · rfl
      · rw [ih, List.map_cons]

theorem sortFields_map {α β : Type} (g : α → β) (fields : List (String × α)) :
    sortFields (fields.map fun f => (f.1, g f.2))
      = (sortFields fields).map fun f => (f.1, g f.2) := by
  have hfold : ∀ sorted : List (String × α),
      (fields.map fun f => (f.1, g f.2)).foldl (fun sorted f => putSorted f.1 f.2 sorted)
          (sorted.map fun f => (f.1, g f.2))
        = (fields.foldl (fun sorted f => putSorted f.1 f.2 sorted) sorted).map
            fun f => (f.1, g f.2) := by
    induction fields with
    | nil => exact fun _ => rfl
    | cons f fields ih =>
      intro sorted
      rw [List.map_cons, List.foldl_cons, List.foldl_cons, ← ih]
      exact congrArg (List.foldl _ · _) (putSorted_map g f.1 f.2 sorted)
  exact hfold []

theorem arrange_map {α β : Type} (g : α → β) (fields : List (String × α)) :
    order.arrange (fields.map fun f => (f.1, g f.2))
      = (order.arrange fields).map fun f => (f.1, g f.2) := by
  cases order with
  | asWritten => rfl
  | byName => exact sortFields_map g fields

theorem putSorted_perm {α : Type} {key : String} (a : α) {fields : List (String × α)}
    (h : key ∉ fields.map Prod.fst) : (putSorted key a fields).Perm ((key, a) :: fields) := by
  induction fields with
  | nil => exact .refl _
  | cons f fields ih =>
    rw [List.map_cons, List.mem_cons, not_or] at h
    rw [putSorted, if_neg h.1]
    split
    · exact .refl _
    · exact ((ih h.2).cons f).trans (.swap _ _ _)

/-- Sorting loses a field only to another one of its name. -/
theorem FieldOrder.arrange_perm {α : Type} (order : FieldOrder) {fields : List (String × α)}
    (hnodup : (fields.map Prod.fst).Nodup) : (order.arrange fields).Perm fields := by
  cases order with
  | asWritten => exact .refl _
  | byName =>
    induction fields using List.reverseRecOn with
    | nil => exact .refl _
    | append_singleton fields f ih =>
      rw [List.map_append, List.nodup_append] at hnodup
      obtain ⟨hnodup, -, hfresh⟩ := hnodup
      have hnames := (ih hnodup).map Prod.fst
      have hput : (putSorted f.1 f.2 (sortFields fields)).Perm (f :: sortFields fields) :=
        putSorted_perm f.2 fun hmem =>
          hfresh f.1 (hnames.mem_iff.mp hmem) f.1 List.mem_cons_self rfl
      rw [arrange, sortFields, List.foldl_append]
      exact (hput.trans ((ih hnodup).cons f)).trans (List.perm_append_singleton f fields).symm

theorem fieldsText_eq (order : FieldOrder) (fields : List (String × String)) :
    fieldsText order fields = "\x7b"
      ++ ",".intercalate ((order.arrange fields).map fun f => stringText f.1 ++ ":" ++ f.2)
      ++ "\x7d" := by
  cases order <;> rfl

theorem toList_text_obj {fields : List (String × Json)}
    (hplain : ∀ f ∈ order.arrange fields, IsPlainName f.1) :
    (text order (.obj fields)).toList
      = '{' :: (fieldsChars order (order.arrange fields) ++ ['}']) := by
  have hfields : ((order.arrange fields).map fun f =>
      (stringText f.1 ++ ":" ++ text order f.2).toList)
        = (order.arrange fields).map (fieldChars order) := by
    refine List.map_congr_left fun f hf => ?_
    rw [String.toList_append, String.toList_append, toList_stringText (hplain f hf)]
    simp [fieldChars]
  rw [text, fieldsText_eq, fieldTexts_eq, arrange_map, List.map_map, String.toList_append,
    String.toList_append, String.toList_intercalate, List.map_map, fieldsChars, ← hfields]
  rfl

theorem fieldsChars_cons (order : FieldOrder) (f g : String × Json)
    (fields : List (String × Json)) : fieldsChars order (f :: g :: fields)
      = fieldChars order f ++ ',' :: fieldsChars order (g :: fields) := by
  simp [fieldsChars, List.intercalate_cons_cons]

theorem fieldsChars_singleton (order : FieldOrder) (f : String × Json) :
    fieldsChars order [f] = fieldChars order f := by
  simp [fieldsChars]

theorem length_le_fieldsChars (order : FieldOrder) (fields : List (String × Json)) :
    fields.length ≤ (fieldsChars order fields).length := by
  induction fields with
  | nil => exact Nat.zero_le _
  | cons f fields ih =>
    cases fields with
    | nil =>
      rw [fieldsChars_singleton, fieldChars]
      simp
    | cons g fields =>
      simp only [fieldsChars_cons, List.length_append, List.length_cons] at ih ⊢
      omega

/-- What is read of the field in front. -/
theorem readFields_field {f : String × Json} (hplain : IsPlainName f.1)
    (hread : IsReadable order f.2) (fuel : Nat) (r : List Char) :
    readFields (fuel + 2) .taken (fieldChars order f ++ '}' :: r) = some ([f], r) ∧
      readFields (fuel + 2) .taken (fieldChars order f ++ ',' :: r)
        = (readFields (fuel + 1) .taken r).map fun p => (f :: p.1, p.2) := by
  have hname (r : List Char) :
      readString true [] (f.1.toList ++ '"' :: r) = some (f.1, r) := by
    rw [readString_append hplain, List.reverse_nil, List.nil_append, String.ofList_toList]
  have hchars (r : List Char) : fieldChars order f ++ r
      = '"' :: (f.1.toList ++ '"' :: ':' :: ((text order f.2).toList ++ r)) := by
    simp [fieldChars]
  have hgap (c : Char) (hc : isGap c = false) (r : List Char) : skipGap (c :: r) = c :: r := by
    rw [skipGap, List.dropWhile_cons_of_neg (by simp [hc])]
  rw [hchars, hchars, readFields, readFields, hgap '"' rfl, hgap '"' rfl]
  simp only [Shape.needsText, hname, hgap ':' rfl, Shape.field, Option.bind_eq_bind,
    Option.bind_some]
  rw [hread fuel _ ⟨r, .inr rfl⟩, hread fuel _ ⟨r, .inl rfl⟩]
  simp only [Option.bind_some, hgap ',' rfl, hgap '}' rfl]
  constructor
  · rfl
  · cases readFields (fuel + 1) .taken r <;> rfl

/-- The fields of an object are read one after the other, in as many steps and one more for the
last value. -/
theorem readFields_fieldsChars {fields : List (String × Json)} (hne : fields ≠ [])
    (hplain : ∀ f ∈ fields, IsPlainName f.1) (hread : ∀ f ∈ fields, IsReadable order f.2)
    {fuel : Nat} (hfuel : fields.length < fuel) (rest : List Char) :
    readFields fuel .taken (fieldsChars order fields ++ '}' :: rest) = some (fields, rest) := by
  induction fields generalizing fuel with
  | nil => exact absurd rfl hne
  | cons f fields ih =>
    rw [List.forall_mem_cons] at hplain hread
    rw [List.length_cons] at hfuel
    obtain ⟨fuel, rfl⟩ : ∃ k, fuel = k + 2 := ⟨fuel - 2, by omega⟩
    cases fields with
    | nil =>
      rw [fieldsChars_singleton]
      exact (readFields_field hplain.1 hread.1 fuel rest).1
    | cons g fields =>
      rw [fieldsChars_cons, List.append_assoc, List.cons_append,
        (readFields_field hplain.1 hread.1 fuel _).2,
        ih (List.cons_ne_nil g fields) hplain.2 hread.2 (by omega)]
      rfl

theorem readValue_object (fuel : Nat) (cs : List Char) :
    readValue (fuel + 1) .taken ('{' :: '"' :: cs)
      = (readFields fuel .taken ('"' :: cs)).map fun p => (.obj p.1, p.2) := by
  rw [readValue]
  rfl

theorem exists_fieldsChars_eq (order : FieldOrder) (f : String × Json)
    (fields : List (String × Json)) : ∃ r, fieldsChars order (f :: fields) = '"' :: r := by
  cases fields with
  | nil => exact ⟨_, fieldsChars_singleton order f⟩
  | cons g fields => exact ⟨_, fieldsChars_cons order f g fields⟩

/-- An object is read from its fields in braces. -/
theorem readValue_fieldsChars {fields : List (String × Json)}
    (hplain : ∀ f ∈ fields, IsPlainName f.1) (hread : ∀ f ∈ fields, IsReadable order f.2)
    {fuel : Nat} (hfuel : fields.length < fuel) (rest : List Char) :
    readValue (fuel + 1) .taken ('{' :: (fieldsChars order fields ++ '}' :: rest))
      = some (.obj fields, rest) := by
  cases fields with
  | nil =>
    rw [readValue]
    rfl
  | cons f fields =>
    have hfields := readFields_fieldsChars (List.cons_ne_nil f fields) hplain hread hfuel rest
    obtain ⟨r, hr⟩ := exists_fieldsChars_eq order f fields
    rw [hr, List.cons_append] at hfields ⊢
    rw [readValue_object, hfields, Option.map_some]

/-- **Objects.** The text of an object whose names are plain and whose values are readable is read
as the object, its fields in the order in which they were written. -/
theorem parse?_text_obj {fields : List (String × Json)}
    (hplain : ∀ f ∈ order.arrange fields, IsPlainName f.1)
    (hread : ∀ f ∈ order.arrange fields, IsReadable order f.2) :
    parse? (text order (.obj fields)) = some (.obj (order.arrange fields)) := by
  have htext := toList_text_obj hplain
  have hfuel : (order.arrange fields).length < 2 * (text order (.obj fields)).length + 1 := by
    have hle := length_le_fieldsChars order (order.arrange fields)
    rw [← String.length_toList, htext, List.length_cons, List.length_append]
    omega
  rw [parse?, parseAs?, htext, readValue_fieldsChars hplain hread hfuel []]
  rfl

end Json

end AccountHistory
