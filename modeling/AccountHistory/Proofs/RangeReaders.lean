import Mathlib.Data.List.Nodup
import AccountHistory.Proofs.Printing
import AccountHistory.Proofs.Shapes
import AccountHistory.Sync.Range

/-!
# Two readers of a range

Ranges are stored and received as objects with four fields. The strict reader gives up where a
field is of no use; the loose one takes it as unset. Here they are compared on every object and on
every text, and both undo the writer.

* `bound?_eq_none_iff` is the one thing on which they differ: a value that is neither null nor an
  integer of 64 bits. So whatever the strict reader takes, the loose one takes for the same
  (`ofJson_of_ofJson?`);
* the strict reader of texts drops all that is no bound before it looks at a value. What it finds
  is what it would find in the whole document (`parse?_eq_ofJson?`);
* a printer that sorts fields by name puts the four into another order, which no reader minds
  (`ofJson?_of_perm`).
-/

namespace AccountHistory

namespace Json

variable {fields : List (String × Json)} {key : String} {v : Json} {n : Int}

/-! ## Values of fields -/

theorem int64?_eq_some_iff : v.int64? = some n ↔ v = .int n ∧ Width.int64.holds n = true := by
  constructor
  · intro h
    cases v with
    | int m =>
      obtain ⟨hholds, heq⟩ := Option.ite_none_right_eq_some.mp h
      obtain rfl := Option.some.inj heq
      exact ⟨rfl, hholds⟩
    | _ => cases h
  · rintro ⟨rfl, hholds⟩
    exact if_pos hholds

theorem field?_obj : (obj fields).field? key
    = ((fields.filter fun f => f.1 == key).getLast?).map Prod.snd := by
  rw [field?, ← List.head?_filter, List.filter_reverse, List.head?_reverse]

theorem mem_filter_key : (key, v) ∈ fields.filter (fun f => f.1 == key) ↔ (key, v) ∈ fields := by
  rw [List.mem_filter, beq_self_eq_true, and_iff_left rfl]

theorem length_filter_key :
    (fields.filter fun f => f.1 == key).length = (fields.map Prod.fst).count key := by
  rw [List.count, List.countP_map, List.countP_eq_length_filter]
  rfl

/-- Where no name is repeated, a field is the only one of its name. -/
theorem filter_key_eq_of_mem (hnodup : (fields.map Prod.fst).Nodup) (h : (key, v) ∈ fields) :
    (fields.filter fun f => f.1 == key) = [(key, v)] := by
  have hcount := List.count_eq_one_of_mem hnodup (List.mem_map_of_mem (f := Prod.fst) h)
  rw [← length_filter_key] at hcount
  obtain ⟨f, hf⟩ := List.length_eq_one_iff.mp hcount
  have hmem := mem_filter_key.mpr h
  rw [hf] at hmem ⊢
  rw [List.mem_singleton.mp hmem]

theorem field?_eq_some_iff (hnodup : (fields.map Prod.fst).Nodup) :
    (obj fields).field? key = some v ↔ (key, v) ∈ fields := by
  constructor
  · intro h
    rw [field?_obj] at h
    obtain ⟨⟨k, w⟩, hlast, rfl⟩ := Option.map_eq_some_iff.mp h
    obtain ⟨hmem, hkey⟩ := List.mem_filter.mp (List.mem_of_getLast? hlast)
    obtain rfl : k = key := eq_of_beq hkey
    exact hmem
  · intro h
    rw [field?_obj, filter_key_eq_of_mem hnodup h]
    rfl

/-- Of no use as a bound: neither null nor an integer of 64 bits. -/
def IsForeign (v : Json) : Prop :=
  v ≠ .null ∧ ∀ n, v = .int n → Width.int64.holds n = false

end Json

namespace SyncRange

variable {fields : List (String × Json)} {key : String} {v w : Json} {r : SyncRange} {n : Int}

/-! ## One bound -/

theorem bound?_of_ne_null (h : v ≠ .null) : bound? v = v.int64?.map some := by
  cases v with
  | null => exact absurd rfl h
  | _ => rfl

theorem bound?_eq_none_iff : bound? v = none ↔ v.IsForeign := by
  by_cases hnull : v = .null
  · subst hnull
    exact iff_of_false nofun fun h => h.1 rfl
  · rw [bound?_of_ne_null hnull, Option.map_eq_none_iff, Option.eq_none_iff_forall_ne_some,
      Json.IsForeign, and_iff_right hnull]
    refine forall_congr' fun n => ?_
    rw [ne_eq, Json.int64?_eq_some_iff, not_and, Bool.not_eq_true]

theorem int64?_of_bound? {b : Option Int} (h : bound? v = some b) : v.int64? = b := by
  by_cases hnull : v = .null
  · subst hnull
    exact Option.some.inj h
  · rw [bound?_of_ne_null hnull] at h
    obtain ⟨n, hn, rfl⟩ := Option.map_eq_some_iff.mp h
    exact hn

theorem bound?_ofOption {b : Option Int} (h : ∀ n, b = some n → Width.int64.holds n = true) :
    bound? (Json.ofOption .int b) = some b := by
  cases b with
  | none => rfl
  | some n =>
    have hnull : Json.int n ≠ .null := nofun
    rw [Json.ofOption, bound?_of_ne_null hnull, Json.int64?_eq_some_iff.mpr ⟨rfl, h n rfl⟩]
    rfl

/-- A field is refused if it is repeated or of no use. -/
theorem field?_eq_none_iff : field? fields key = none ↔
    2 ≤ (fields.map Prod.fst).count key ∨ ∃ v, (key, v) ∈ fields ∧ v.IsForeign := by
  have hmem : (∃ v, (key, v) ∈ fields ∧ v.IsForeign)
      ↔ ∃ v, (key, v) ∈ fields.filter (fun f => f.1 == key) ∧ v.IsForeign :=
    exists_congr fun v => and_congr_left' Json.mem_filter_key.symm
  rw [field?, hmem, ← Json.length_filter_key]
  rcases hf : fields.filter (fun f => f.1 == key) with _ | ⟨⟨k, w⟩, _ | ⟨g, rest⟩⟩
  · rw [hf]
    simp
  · have hfirst : (k, w) ∈ fields.filter fun f => f.1 == key := by
      rw [hf]
      exact List.mem_singleton_self _
    obtain rfl : k = key := eq_of_beq (List.mem_filter.mp hfirst).2
    rw [hf]
    simp [bound?_eq_none_iff]
  · rw [hf]
    simp

/-- A field that is not refused is read alike. -/
theorem int64?_of_field? {b : Option Int} (h : field? fields key = some b) :
    ((Json.obj fields).field? key).bind Json.int64? = b := by
  rw [field?] at h
  rw [Json.field?_obj]
  split at h
  case h_1 hf =>
    rw [hf]
    exact Option.some.inj h
  case h_2 f hf =>
    rw [hf]
    exact int64?_of_bound? h
  case h_3 => cases h

theorem field?_of_mem (hnodup : (fields.map Prod.fst).Nodup) (h : (key, v) ∈ fields) :
    field? fields key = bound? v := by
  rw [field?, Json.filter_key_eq_of_mem hnodup h]

theorem int64?_eq_some_iff_of_nodup (hnodup : (fields.map Prod.fst).Nodup) :
    ((Json.obj fields).field? key).bind Json.int64? = some n
      ↔ (key, .int n) ∈ fields ∧ Width.int64.holds n = true := by
  rw [Option.bind_eq_some_iff]
  constructor
  · rintro ⟨v, hv, hn⟩
    obtain ⟨rfl, hholds⟩ := Json.int64?_eq_some_iff.mp hn
    exact ⟨(Json.field?_eq_some_iff hnodup).mp hv, hholds⟩
  · rintro ⟨hmem, hholds⟩
    exact ⟨.int n, (Json.field?_eq_some_iff hnodup).mpr hmem,
      Json.int64?_eq_some_iff.mpr ⟨rfl, hholds⟩⟩

/-! ## The four of them -/

/-- The bounds, in the order of their keys. -/
def bounds (r : SyncRange) : List (Option Int) :=
  [r.baseFrom, r.baseTo, r.currFrom, r.currTo]

/-- All bounds that are set are numbers of a width. -/
def IsWithin (w : Width) (r : SyncRange) : Prop :=
  ∀ n, some n ∈ r.bounds → w.holds n = true

theorem ofJson?_obj_eq_some_iff : ofJson? (.obj fields) = some r
    ↔ ∀ p ∈ keys.zip r.bounds, field? fields p.1 = some p.2 := by
  cases r
  simp [ofJson?, keys, bounds, Option.bind_eq_some_iff]

theorem ofJson?_obj_eq_none_iff : ofJson? (.obj fields) = none
    ↔ ∃ key ∈ keys, field? fields key = none := by
  rw [ofJson?]
  rcases h₁ : field? fields "baseStartFrom" with _ | a
  · simp [keys, h₁]
  · rcases h₂ : field? fields "baseStartTo" with _ | b
    · simp [keys, h₂]
    · rcases h₃ : field? fields "currStart" with _ | c
      · simp [keys, h₃]
      · rcases h₄ : field? fields "currEnd" with _ | d
        · simp [keys, h₄]
        · simp [keys, h₁, h₂, h₃, h₄]

theorem ofJson?_obj_congr {fs gs : List (String × Json)}
    (h : ∀ key ∈ keys, field? fs key = field? gs key) : ofJson? (.obj fs) = ofJson? (.obj gs) := by
  rw [ofJson?, ofJson?, h _ (by decide : "baseStartFrom" ∈ keys),
    h _ (by decide : "baseStartTo" ∈ keys), h _ (by decide : "currStart" ∈ keys),
    h _ (by decide : "currEnd" ∈ keys)]

theorem zip_bounds_ofJson (v : Json) : keys.zip (ofJson v).bounds
    = keys.map fun key => (key, (v.field? key).bind Json.int64?) := by
  rw [List.map_prod_left_eq_zip]
  rfl

/-- Whatever object the strict reader takes, the loose one takes for the same range. -/
theorem ofJson_of_ofJson? (h : ofJson? (.obj fields) = some r) : ofJson (.obj fields) = r := by
  have hbounds := ofJson?_obj_eq_some_iff.mp h
  have hread : ∀ p ∈ keys.zip r.bounds, ((Json.obj fields).field? p.1).bind Json.int64? = p.2 :=
    fun p hp => int64?_of_field? (hbounds p hp)
  cases r
  simpa [keys, bounds, ofJson] using hread

/-- Where no name is repeated, an object is refused for a value of no use. -/
theorem ofJson?_obj_eq_none_iff_of_nodup (hnodup : (fields.map Prod.fst).Nodup) :
    ofJson? (.obj fields) = none ↔ ∃ key ∈ keys, ∃ v, (key, v) ∈ fields ∧ v.IsForeign := by
  rw [ofJson?_obj_eq_none_iff]
  refine exists_congr fun key => and_congr_right fun _ => ?_
  have hcount := List.nodup_iff_count_le_one.mp hnodup key
  rw [field?_eq_none_iff, or_iff_right (by omega)]

/-- Where no name is repeated, the loose reader takes the integers of 64 bits for what they are. -/
theorem ofJson_bound_eq_some_iff (hnodup : (fields.map Prod.fst).Nodup)
    {p : String × Option Int} (hp : p ∈ keys.zip (ofJson (.obj fields)).bounds) :
    p.2 = some n ↔ (p.1, .int n) ∈ fields ∧ Width.int64.holds n = true := by
  rw [zip_bounds_ofJson] at hp
  obtain ⟨key, -, rfl⟩ := List.mem_map.mp hp
  exact int64?_eq_some_iff_of_nodup hnodup

/-- Where no name is repeated, the loose reader leaves a bound unset for a value of no use. -/
theorem ofJson_bound_eq_none (hnodup : (fields.map Prod.fst).Nodup)
    {p : String × Option Int} (hp : p ∈ keys.zip (ofJson (.obj fields)).bounds)
    (hmem : (p.1, v) ∈ fields) (hforeign : v.IsForeign) : p.2 = none := by
  rw [Option.eq_none_iff_forall_ne_some]
  intro n hn
  obtain ⟨hint, hholds⟩ := (ofJson_bound_eq_some_iff hnodup hp).mp hn
  have hsame := (Json.field?_eq_some_iff hnodup).mpr hint
  rw [(Json.field?_eq_some_iff hnodup).mpr hmem] at hsame
  rw [hforeign.2 n (Option.some.inj hsame)] at hholds
  cases hholds

/-! ## Documents -/

theorem field_shape (h : key ∈ keys) : shape.field key = .taken := by
  have hfind : ∀ key ∈ keys, keys.find? (· == key) = some key := by decide
  rw [shape, Json.Shape.field, List.find?_map, Function.comp_def, hfind key h]
  rfl

/-- What is dropped of a document does not matter. -/
theorem ofJson?_eq_of_agrees (h : Json.Agrees shape v w) : ofJson? v = ofJson? w := by
  have htaken : ∀ f ∈ keys.map fun key => (key, Json.Shape.taken), f.2 = .taken := by
    intro f hf
    obtain ⟨key, -, rfl⟩ := List.mem_map.mp hf
    rfl
  rw [shape] at h
  cases h with
  | plain => rfl
  | arr h => rw [h.eq_of_forall htaken]
  | obj h =>
    refine ofJson?_obj_congr fun key hkey => ?_
    rw [field?, field?, h.filter_eq (field_shape hkey)]

/-- The strict reader of texts finds in a document what there is to be found. -/
theorem parse?_eq_ofJson? {text : String} (h : Json.parse? text = some v) :
    parse? text = ofJson? v := by
  obtain ⟨w, hw, hagrees⟩ := Json.exists_parseAs? h shape
  rw [parse?, hw, Option.bind_some, ofJson?_eq_of_agrees hagrees]

/-! ## The writer -/

/-- The fields that the writer writes. -/
def written (r : SyncRange) : List (String × Json) :=
  keys.zip (r.bounds.map (Json.ofOption .int))

theorem toJson_eq (r : SyncRange) : r.toJson = .obj r.written :=
  rfl

theorem map_fst_written (r : SyncRange) : r.written.map Prod.fst = keys :=
  rfl

theorem written_eq (r : SyncRange) :
    r.written = (keys.zip r.bounds).map fun p => (p.1, Json.ofOption .int p.2) :=
  rfl

theorem nodup_written (r : SyncRange) : (r.written.map Prod.fst).Nodup := by
  rw [map_fst_written]
  decide

/-- The fields of a range are read back strictly in any order. -/
theorem ofJson?_of_perm (hr : r.IsWithin .int64) (h : fields.Perm r.written) :
    ofJson? (.obj fields) = some r := by
  rw [ofJson?_obj_eq_some_iff]
  intro p hp
  have hmem : (p.1, Json.ofOption .int p.2) ∈ fields := by
    rw [h.mem_iff, written_eq]
    exact List.mem_map_of_mem hp
  have hnodup := (h.map Prod.fst).nodup_iff.mpr r.nodup_written
  rw [field?_of_mem hnodup hmem]
  refine bound?_ofOption fun n hn => hr n ?_
  rw [← hn]
  exact (List.of_mem_zip hp).2

theorem isPlainName_of_mem_keys (h : key ∈ keys) : Json.IsPlainName key := by
  have hall : (keys.all fun key =>
      key.toList.all fun c => c ≠ '"' && c ≠ '\\' && 0x20 ≤ c.toNat) = true := by decide
  intro c hc
  simpa [Json.IsPlainChar, and_assoc] using List.all_eq_true.mp (List.all_eq_true.mp hall key h) c hc

theorem isReadable_ofOption {b : Option Int} (order : Json.FieldOrder)
    (h : ∀ n, b = some n → Width.int64.holds n = true) :
    Json.IsReadable order (Json.ofOption .int b) := by
  cases b with
  | none => exact Json.isReadable_null order
  | some n =>
    obtain ⟨hleast, hgreatest⟩ := Width.holds_iff.mp (h n rfl)
    exact Json.isReadable_int order hleast (Int.le_trans hgreatest (by decide))

/-- The text of a range is a document with its fields in some order. -/
theorem exists_parse?_text (hr : r.IsWithin .int64) (order : Json.FieldOrder) :
    ∃ fields, Json.parse? (r.toJson.text order) = some (.obj fields) ∧ fields.Perm r.written := by
  have hperm := order.arrange_perm r.nodup_written
  rw [toJson_eq]
  refine ⟨_, Json.parse?_text_obj (fun f hf => ?_) fun f hf => ?_, hperm⟩
  · refine isPlainName_of_mem_keys ?_
    rw [← r.map_fst_written]
    exact List.mem_map_of_mem (hperm.mem_iff.mp hf)
  · rw [hperm.mem_iff, written_eq] at hf
    obtain ⟨p, hp, rfl⟩ := List.mem_map.mp hf
    refine isReadable_ofOption order fun n hn => hr n ?_
    rw [← hn]
    exact (List.of_mem_zip hp).2

/-- **The two readers of a range.**

* What is read strictly from an object is read loosely to the same range.
* An object, whose names are all different, is refused strictly exactly when one of the four keys
  has a foreign value. The loose reader leaves such a bound unset and takes each other one that is
  an integer of 64 bits for what it is.
* An object that repeats names, which only a text can hold, is refused for a repeated key as well.
* The strict reader of texts finds in every document what there is to be found.
* Both readers give back a range of integers of 64 bits from what is written of it, as a value and
  as a text, be its fields in order or sorted by name. -/
theorem readers_agree :
    (∀ fields r, ofJson? (.obj fields) = some r → ofJson (.obj fields) = r) ∧
    (∀ fields : List (String × Json), (fields.map Prod.fst).Nodup →
      (ofJson? (.obj fields) = none ↔ ∃ key ∈ keys, ∃ v, (key, v) ∈ fields ∧ v.IsForeign) ∧
      ∀ p ∈ keys.zip (ofJson (.obj fields)).bounds,
        (∀ v, (p.1, v) ∈ fields → v.IsForeign → p.2 = none) ∧
        ∀ n, p.2 = some n ↔ (p.1, .int n) ∈ fields ∧ Width.int64.holds n = true) ∧
    (∀ fields : List (String × Json), ofJson? (.obj fields) = none ↔
      ∃ key ∈ keys, 2 ≤ (fields.map Prod.fst).count key ∨
        ∃ v, (key, v) ∈ fields ∧ v.IsForeign) ∧
    (∀ text v, Json.parse? text = some v → parse? text = ofJson? v) ∧
    ∀ r : SyncRange, r.IsWithin .int64 →
      ofJson? r.toJson = some r ∧ ofJson r.toJson = r ∧
      ∀ order, parse? (r.toJson.text order) = some r ∧
        (Json.parse? (r.toJson.text order)).map ofJson = some r := by
  refine ⟨fun fields r => ofJson_of_ofJson?, fun fields hnodup => ⟨?_, fun p hp => ⟨?_, ?_⟩⟩, ?_,
    fun text v => parse?_eq_ofJson?, fun r hr => ?_⟩
  · exact ofJson?_obj_eq_none_iff_of_nodup hnodup
  · exact fun v => ofJson_bound_eq_none hnodup hp
  · exact fun n => ofJson_bound_eq_some_iff hnodup hp
  · intro fields
    simp only [ofJson?_obj_eq_none_iff, field?_eq_none_iff]
  · have hvalue := ofJson?_of_perm hr (.refl r.written)
    refine ⟨hvalue, ofJson_of_ofJson? hvalue, fun order => ?_⟩
    obtain ⟨fields, hparse, hperm⟩ := exists_parse?_text hr order
    have hread := ofJson?_of_perm hr hperm
    rw [parse?_eq_ofJson? hparse, hparse]
    exact ⟨hread, congrArg some (ofJson_of_ofJson? hread)⟩

/-- The fields of an object of which one bound is of use. -/
def mixedFields : List (String × Json) :=
  [("note", .arr []), ("baseStartFrom", .str "100"), ("baseStartTo", .int 200),
    ("currStart", .null), ("currEnd", .int 9223372036854775808)]

/-- A range with the least and the greatest bound there are. -/
def extremes : SyncRange :=
  ⟨some (-9223372036854775808), none, some 0, some 9223372036854775807⟩

/-- An object that both readers take for the same range, an object that only the loose one takes,
and a range that is written and read back. -/
theorem readers_agree_mixed :
    (ofJson? (.obj [("note", .arr []), ("currEnd", .int 7)]) = some ⟨none, none, none, some 7⟩ ∧
      ofJson (.obj [("note", .arr []), ("currEnd", .int 7)]) = ⟨none, none, none, some 7⟩) ∧
    ((mixedFields.map Prod.fst).Nodup ∧ ofJson? (.obj mixedFields) = none ∧
      (ofJson (.obj mixedFields)).baseFrom = none ∧
      (ofJson (.obj mixedFields)).baseTo = some 200) ∧
    (∃ v, Json.parse? (extremes.toJson.text .byName) = some v ∧
      parse? (extremes.toJson.text .byName) = ofJson? v) ∧
    (extremes.IsWithin .int64 ∧ ofJson? extremes.toJson = some extremes ∧
      ofJson extremes.toJson = extremes ∧
      parse? (extremes.toJson.text .byName) = some extremes) := by
  obtain ⟨hsame, hobject, -, htext, hwritten⟩ := readers_agree
  have hstrict : ofJson? (.obj [("note", .arr []), ("currEnd", .int 7)])
      = some ⟨none, none, none, some 7⟩ := rfl
  have hnodup : (mixedFields.map Prod.fst).Nodup := by decide
  have hforeign : (Json.str "100").IsForeign := ⟨nofun, nofun⟩
  obtain ⟨hrefused, hbounds⟩ := hobject mixedFields hnodup
  have hwithin : extremes.IsWithin .int64 := by
    intro n hn
    simp only [bounds, extremes, List.mem_cons, List.not_mem_nil, Option.some.injEq, or_false,
      reduceCtorEq, false_or] at hn
    obtain rfl | rfl | rfl := hn <;> decide
  obtain ⟨fields, hparse, -⟩ := exists_parse?_text hwithin .byName
  obtain ⟨hvalue, hloose, htexts⟩ := hwritten extremes hwithin
  refine ⟨⟨hstrict, hsame _ _ hstrict⟩, ⟨hnodup, ?_, ?_, ?_⟩, ⟨_, hparse, htext _ _ hparse⟩,
    hwithin, hvalue, hloose, (htexts .byName).1⟩
  · exact hrefused.mpr ⟨"baseStartFrom", by decide, .str "100", by simp [mixedFields], hforeign⟩
  · exact (hbounds ("baseStartFrom", _) (by simp [keys, bounds])).1 (.str "100")
      (by simp [mixedFields]) hforeign
  · exact ((hbounds ("baseStartTo", _) (by simp [keys, bounds])).2 200).mpr
      ⟨by simp [mixedFields], by decide⟩

end SyncRange

end AccountHistory
