import AccountHistory.Proofs.Outcomes
import AccountHistory.Schema.Obedience

/-!
# Texts as characters

The tokens of a text are those of its characters, and a template is filled in character by
character. So what a statement says is found without going through texts: the characters of a
template come from the parts that it is put together of.
-/

namespace AccountHistory

open Sql

/-! ## Reading characters -/

namespace Sql

theorem Token.ofText_ofList (cs : List Char) :
    Token.ofText (String.ofList cs) = Token.readAll (cs.length + 1) cs := by
  rw [Token.ofText, String.toList_ofList, String.length_ofList]

/-- The rules that characters state. -/
def rulesOfChars? (cs : List Char) : Option (List TableRule) :=
  let ts := Token.readAll (cs.length + 2) (cs ++ [')'])
  match readRules (ts.length + 1) ts with
  | some (rules, [.mark ")"]) => some rules
  | _ => none

theorem rulesOfText?_ofList (cs : List Char) :
    rulesOfText? (String.ofList cs) = rulesOfChars? cs := by
  have happend : String.ofList cs ++ ")" = String.ofList (cs ++ [')']) := by
    rw [String.ofList_append]
  rw [rulesOfText?, happend, Token.ofText_ofList, rulesOfChars?, List.length_append]
  rfl

/-- The statements that characters make up. -/
def scriptOfChars (cs : List Char) : Script :=
  if cs.contains '\x00' then ⟨[], true⟩ else .ofTokens (Token.readAll (cs.length + 1) cs)

theorem Script.ofText_ofList (cs : List Char) :
    Script.ofText (String.ofList cs) = scriptOfChars cs := by
  rw [Script.ofText, String.toList_ofList, Token.ofText_ofList, scriptOfChars]

end Sql

/-! ## Templates in parts -/

/-- The characters of a text in parts. -/
theorem toList_foldl_append (first : String) (others : List String) :
    (others.foldl (· ++ ·) first).toList
      = others.foldl (fun cs s => cs ++ s.toList) first.toList := by
  induction others generalizing first with
  | nil => rfl
  | cons s rest ih => rw [List.foldl_cons, ih, String.toList_append, List.foldl_cons]

namespace Template

variable {t : Template} {table text : String} (first : String) (others : List String)

/-- The characters of a text for a table. -/
def charsFor (t : Template) (table : String) (cs : List Char) : Except TemplateError (List Char) :=
  fill t.text (fun name => if name = tableParam then some table else none) (Pieces.ofChars cs)

/-- A text in parts is rendered character by character. -/
theorem renderFor_ok (ht : t.text = others.foldl (· ++ ·) first)
    (h : t.renderFor table = .ok text) :
    ∃ cs, t.charsFor table (others.foldl (fun cs s => cs ++ s.toList) first.toList) = .ok cs ∧
      text = String.ofList cs := by
  obtain ⟨cs, hcs, rfl⟩ := exists_of_map h
  refine ⟨cs, ?_, rfl⟩
  rw [← toList_foldl_append, ← ht]
  exact hcs

theorem rulesOfText?_renderFor {rules : List TableRule} (ht : t.text = others.foldl (· ++ ·) first)
    (hread : (t.charsFor table (others.foldl (fun cs s => cs ++ s.toList)
      first.toList)).toOption.bind rulesOfChars? = some rules)
    (h : t.renderFor table = .ok text) : rulesOfText? text = some rules := by
  obtain ⟨cs, hcs, rfl⟩ := renderFor_ok first others ht h
  rw [hcs] at hread
  rw [rulesOfText?_ofList]
  exact hread

theorem script_renderFor {script : Script} (ht : t.text = others.foldl (· ++ ·) first)
    (hread : (t.charsFor table (others.foldl (fun cs s => cs ++ s.toList)
      first.toList)).toOption.map scriptOfChars = some script)
    (h : t.renderFor table = .ok text) : Script.ofText text = script := by
  obtain ⟨cs, hcs, rfl⟩ := renderFor_ok first others ht h
  rw [hcs] at hread
  rw [Script.ofText_ofList]
  exact Option.some.inj hread

end Template

end AccountHistory
