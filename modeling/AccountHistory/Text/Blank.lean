/-!
# Blank characters, trimming and words

Names, type spellings and settings are written by hand, so blank space around and inside them
carries no meaning. Blank is the `White_Space` property of the Unicode standard: it holds the
no-break space and the ideographic space, and leaves out the zero-width space and the byte order
mark.

* `isBlank` is the property itself;
* `trim` removes blanks at both ends, and `words` cuts a text into its maximal runs of non-blanks;
* both are stated on lists of characters first, where their laws are proved.
-/

namespace AccountHistory.Text

/-! ## The property -/

/-- The characters of the Unicode property `White_Space`. -/
def isBlank (c : Char) : Bool :=
  let n := c.toNat
  (0x09 ≤ n && n ≤ 0x0d) || n == 0x20 || n == 0x85 || n == 0xa0 || n == 0x1680
    || (0x2000 ≤ n && n ≤ 0x200a) || n == 0x2028 || n == 0x2029 || n == 0x202f
    || n == 0x205f || n == 0x3000

/-! ## Trimming -/

/-- `cs` without the blanks it ends with. -/
def trimRight : List Char → List Char
  | [] => []
  | c :: cs =>
    match trimRight cs with
    | [] => if isBlank c then [] else [c]
    | kept => c :: kept

/-- `cs` without the blanks at both ends. -/
def trimChars (cs : List Char) : List Char :=
  trimRight (cs.dropWhile isBlank)

/-- `s` without the blanks at both ends. -/
def trim (s : String) : String :=
  String.ofList (trimChars s.toList)

/-- Nothing is left of `s` once its blanks are gone. -/
def isBlankText (s : String) : Bool :=
  s.toList.all isBlank

/-! ## Words -/

/-- The words of a text whose current word, read so far, is `word` (last character first). -/
def wordsFrom (word : List Char) : List Char → List (List Char)
  | [] => if word.isEmpty then [] else [word.reverse]
  | c :: cs =>
    if isBlank c then
      if word.isEmpty then wordsFrom [] cs else word.reverse :: wordsFrom [] cs
    else wordsFrom (c :: word) cs

/-- The maximal runs of non-blank characters of `s`, in order. -/
def words (s : String) : List String :=
  (wordsFrom [] s.toList).map String.ofList

/-! ## Laws -/

theorem trimRight_eq_nil_iff (cs : List Char) : trimRight cs = [] ↔ cs.all isBlank := by
  induction cs with
  | nil => simp [trimRight]
  | cons c cs ih =>
    rw [trimRight]
    split
    · next h => cases hc : isBlank c <;> simp_all
    · next h => simp_all

theorem all_dropWhile_isBlank (cs : List Char) :
    (cs.dropWhile isBlank).all isBlank = cs.all isBlank := by
  induction cs with
  | nil => rfl
  | cons c cs ih => cases hc : isBlank c <;> simp [List.dropWhile, hc, ih]

/-- A text that begins with something begins with it when the blanks it ends with are gone. -/
theorem trimRight_cons {c : Char} (hc : isBlank c = false) (cs : List Char) :
    trimRight (c :: cs) = c :: trimRight cs := by
  rw [trimRight]
  split
  · next hkept => simp [hc, hkept]
  · rfl

theorem trimRight_trimRight (cs : List Char) : trimRight (trimRight cs) = trimRight cs := by
  induction cs with
  | nil => rfl
  | cons c cs ih =>
    cases hkept : trimRight cs with
    | nil => cases hc : isBlank c <;> simp [trimRight, hkept, hc]
    | cons d kept =>
      rw [hkept] at ih
      rw [trimRight, hkept, trimRight, ih]

theorem trimChars_trimChars (cs : List Char) : trimChars (trimChars cs) = trimChars cs := by
  have hfront : (trimChars cs).dropWhile isBlank = trimChars cs := by
    cases hleft : cs.dropWhile isBlank with
    | nil => simp [trimChars, hleft, trimRight]
    | cons c rest =>
      have hc : isBlank c = false := by
        have := List.head?_dropWhile_not isBlank cs
        rwa [hleft] at this
      rw [trimChars, hleft, trimRight_cons hc, List.dropWhile_cons_of_neg (by simp [hc])]
  rw [trimChars, hfront, trimChars, trimRight_trimRight]

/-- What is trimmed has no blanks to lose. -/
theorem trim_trim (s : String) : trim (trim s) = trim s := by
  rw [trim, trim, String.toList_ofList, trimChars_trimChars]

/-- Trimming leaves nothing exactly when every character is blank. -/
theorem trimChars_eq_nil_iff (cs : List Char) : trimChars cs = [] ↔ cs.all isBlank := by
  rw [trimChars, trimRight_eq_nil_iff, all_dropWhile_isBlank]

end AccountHistory.Text
