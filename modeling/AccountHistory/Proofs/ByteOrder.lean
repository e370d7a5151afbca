import Mathlib.Data.String.Basic
import Mathlib.Tactic.SplitIfs

/-!
# The order of bytes

Sorted lists of names are sorted by the bytes of their texts. The library compares texts character
by character. In UTF-8 the two orders are the same: the first byte tells how many follow, more bytes
are for greater characters, and within one length the bytes are the digits of the character to base
64. So `Text.bytes_lt_bytes_iff` holds for all texts, though a character may be one to four bytes
long.
-/

namespace AccountHistory.Text

/-- The bytes of a text in UTF-8, character by character. They are those of the text as a whole, by
`toList_toUTF8`. -/
def bytes (s : String) : List UInt8 :=
  s.toList.flatMap String.utf8EncodeChar

theorem toList_toUTF8 (s : String) : s.toUTF8.data.toList = bytes s := by
  conv => lhs; rw [← String.ofList_toList (s := s)]
  rw [String.toUTF8_eq_toByteArray, String.toByteArray_ofList, List.utf8Encode,
    List.toList_data_toByteArray, bytes]

/-- The lesser of two characters has the lesser bytes, whatever follows: they differ in a byte that
both have. -/
theorem encode_append_lt {c d : Char} (h : c < d) (s t : List UInt8) :
    String.utf8EncodeChar c ++ s < String.utf8EncodeChar d ++ t := by
  have hlt : c.val.toNat < d.val.toNat := h
  have hbound : d.val.toNat < 0x110000 := by
    have hvalid := d.valid
    simp only [UInt32.isValidChar, Nat.isValidChar] at hvalid
    omega
  simp only [String.utf8EncodeChar]
  generalize c.val.toNat = m at *
  generalize d.val.toNat = n at *
  -- by the lengths of both
  split_ifs
  all_goals
    simp (disch := omega) only [List.cons_append, List.nil_append, List.cons_lt_cons_iff,
      UInt8.lt_iff_toNat_lt, ← UInt8.toNat_inj, UInt8.toNat_ofNat', Nat.mod_eq_of_lt]
    omega

theorem nil_lt_encode_append (c : Char) (s : List UInt8) :
    [] < String.utf8EncodeChar c ++ s := by
  simp only [String.utf8EncodeChar]
  split_ifs <;> exact List.nil_lt_cons _ _

theorem flatMap_encode_lt {cs ds : List Char} (h : cs < ds) :
    cs.flatMap String.utf8EncodeChar < ds.flatMap String.utf8EncodeChar := by
  induction h with
  | nil =>
    rw [List.flatMap_nil, List.flatMap_cons]
    exact nil_lt_encode_append _ _
  | rel hlt =>
    rw [List.flatMap_cons, List.flatMap_cons]
    exact encode_append_lt hlt _ _
  | cons _ ih =>
    rw [List.flatMap_cons, List.flatMap_cons]
    exact List.append_left_lt ih

/-- **Order of bytes.** Texts compare like their bytes. -/
theorem bytes_lt_bytes_iff {s t : String} : bytes s < bytes t ↔ s < t := by
  constructor
  · intro h
    by_contra hnot
    rcases eq_or_lt_of_le (not_lt.mp hnot) with rfl | hlt
    · exact List.lt_irrefl _ h
    · exact List.lt_asymm h (flatMap_encode_lt (String.lt_iff_toList_lt.mp hlt))
  · intro h
    exact flatMap_encode_lt (String.lt_iff_toList_lt.mp h)

end AccountHistory.Text
