import AccountHistory.Text.Letter

/-!
# Patterns

A pattern is a text in which `%` stands for any text and `_` for any one character. All other
characters stand for themselves, letters without regard to ASCII case.
-/

namespace AccountHistory.Text

/-- Some end part of the text passes the test, the whole and the empty part included. -/
def someTail (test : List Char → Bool) : List Char → Bool
  | [] => test []
  | c :: cs => test (c :: cs) || someTail test cs

/-- A text matches a pattern. -/
def isLike : List Char → List Char → Bool
  | [], cs => cs.isEmpty
  | p :: ps, cs =>
    if p = '%' then someTail (isLike ps) cs
    else
      match cs with
      | [] => false
      | c :: cs => (p == '_' || small p == small c) && isLike ps cs

end AccountHistory.Text
