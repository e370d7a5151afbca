import AccountHistory.Text.Blank
import AccountHistory.Text.Quoted

/-!
# Templates

Constraints and triggers are written once and serve every table that carries them: the text names
the table by a placeholder, and the placeholder is filled in when the statement is made.

* `Pieces` is a text cut at its placeholders, read from left to right. A placeholder runs from the
  first opening mark in what remains to the first closing brace behind it;
* a template is *well formed* when every placeholder is closed and has a plain name;
* `render` puts values in place of the placeholders. A value is not looked at again, so it may hold
  marks of its own.
-/

namespace AccountHistory

open Text

/-! ## Cutting a text at its placeholders -/

/-- A text cut at its placeholders. -/
inductive Pieces where
  /-- plain text up to the end -/
  | last (literal : List Char)
  /-- plain text, then an opening mark that is never closed -/
  | unclosed (literal : List Char)
  /-- plain text, a placeholder, and what follows it -/
  | slot (literal name : List Char) (rest : Pieces)
  deriving DecidableEq, Repr

namespace Pieces

mutual

/-- Cuts what follows the plain text `seen` (last character first). -/
def readLiteral (seen : List Char) : List Char → Pieces
  | [] => .last seen.reverse
  | c :: cs =>
    match cs with
    | [] => .last (c :: seen).reverse
    | d :: ds =>
      if c = '#' ∧ d = '\x7b' then readName seen.reverse [] ds
      else readLiteral (c :: seen) (d :: ds)

/-- Cuts what follows an opening mark and the part `seen` of a name (last character first). -/
def readName (literal seen : List Char) : List Char → Pieces
  | [] => .unclosed literal
  | c :: cs =>
    if c = '\x7d' then .slot literal seen.reverse (readLiteral [] cs)
    else readName literal (c :: seen) cs

end

/-- The pieces of a text. -/
def ofChars (cs : List Char) : Pieces := readLiteral [] cs

/-- The names of the placeholders, in order. -/
def names : Pieces → List (List Char)
  | .last _ => []
  | .unclosed _ => []
  | .slot _ name rest => name :: rest.names

/-- Every placeholder is closed. -/
def isClosed : Pieces → Bool
  | .last _ => true
  | .unclosed _ => false
  | .slot _ _ rest => rest.isClosed

end Pieces

/-! ## Templates -/

/-- A statement text with placeholders. -/
structure Template where
  /-- the text as it is written -/
  text : String
  deriving DecidableEq, Repr, Inhabited

/-- What is wrong with a template, or with filling it in. -/
inductive TemplateError where
  /-- nothing but blank space -/
  | empty
  /-- an opening mark without a closing brace -/
  | unclosed (template : String)
  /-- a placeholder whose name is empty or not plain -/
  | badName (param template : String)
  /-- a placeholder for which there is no value -/
  | unknownParam (param template : String)
  deriving DecidableEq, Repr

/-- The wording of an error. -/
def TemplateError.message : TemplateError → String
  | .empty => "template is empty"
  | .unclosed template => "unclosed placeholder in template: " ++ template
  | .badName param template =>
    "invalid placeholder name " ++ quote param ++ " in template: " ++ template
  | .unknownParam param template =>
    "no value for placeholder " ++ quote param ++ " in template: " ++ template

namespace Template

/-- A character of a plain name: an ASCII letter, an ASCII digit or an underscore. -/
def isNameChar (c : Char) : Bool :=
  c.isAlphanum || c == '_'

/-- A plain name: not empty, and made of name characters. -/
def isName (name : List Char) : Bool :=
  !name.isEmpty && name.all isNameChar

/-- The pieces of the text. -/
def pieces (t : Template) : Pieces := Pieces.ofChars t.text.toList

/-- The first fault of the placeholders, from left to right. -/
def fault? (text : String) : Pieces → Option TemplateError
  | .last _ => none
  | .unclosed _ => some (.unclosed text)
  | .slot _ name rest =>
    if isName name then fault? text rest else some (.badName (String.ofList name) text)

/-- A template from its text, if every placeholder is closed and plainly named. -/
def parse (text : String) : Except TemplateError Template :=
  if isBlankText text then .error .empty
  else
    match fault? text (Pieces.ofChars text.toList) with
    | some e => .error e
    | none => .ok ⟨text⟩

/-- The names of the placeholders, in order; none if the text is not well formed. -/
def params (t : Template) : List String :=
  match fault? t.text t.pieces with
  | some _ => []
  | none => t.pieces.names.map String.ofList

/-- The text of the pieces with values in place of the placeholders. -/
def fill (text : String) (lookup : String → Option String) :
    Pieces → Except TemplateError (List Char)
  | .last literal => .ok literal
  | .unclosed _ => .error (.unclosed text)
  | .slot literal name rest =>
    match lookup (String.ofList name) with
    | none => .error (.unknownParam (String.ofList name) text)
    | some value =>
      match fill text lookup rest with
      | .error e => .error e
      | .ok tail => .ok (literal ++ value.toList ++ tail)

/-- The text with values in place of the placeholders. -/
def render (t : Template) (lookup : String → Option String) : Except TemplateError String :=
  (fill t.text lookup t.pieces).map String.ofList

/-- The placeholder that stands for the table. -/
def tableParam : String := "tableName"

/-- The text for one table: every placeholder must stand for the table. -/
def renderFor (t : Template) (table : String) : Except TemplateError String :=
  t.render fun name => if name = tableParam then some table else none

end Template

end AccountHistory
