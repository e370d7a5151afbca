import AccountHistory.Text.Letter

/-!
# Indexes

An index is written as a list of items: the columns in order and, as a last item, an optional
condition that restricts the index to some of the rows. The name of an index is made of the names of
its table and columns, so one model may not hold two indexes that would share it.
-/

namespace AccountHistory

open Text

/-- An index of a table. -/
structure IndexShape where
  /-- the indexed columns, in order -/
  columns : List String
  /-- the condition on the indexed rows, beginning with its keyword -/
  predicate : Option String
  deriving DecidableEq, Repr

namespace IndexShape

/-- The characters a condition begins with, in capitals. -/
def conditionMark : List Char := ['W', 'H', 'E', 'R', 'E', ' ']

/-- An item is a condition if it begins with the keyword, in whatever case, and a space. -/
def isCondition (item : String) : Bool :=
  conditionMark.isPrefixOf ((item.toList.dropWhile isBlank).map capital)

/-- An index from its columns as they are written: there is at least one, and none is blank. -/
def ofColumns? (columns : List String) (predicate : Option String) : Option IndexShape :=
  if columns.isEmpty || columns.any isBlankText then none
  else some ⟨columns.map trim, predicate⟩

/-- The index that a list of items writes; `none` if no column is left or one is blank. -/
def ofItems? (items : List String) : Option IndexShape :=
  match items.getLast? with
  | none => none
  | some item =>
    if isCondition item then ofColumns? items.dropLast (some (trim item))
    else ofColumns? items none

/-- The columns joined by underscores. -/
def joined (spec : IndexShape) : String :=
  "_".intercalate spec.columns

/-- The index covers only some of the rows. -/
def isPartial (spec : IndexShape) : Bool :=
  spec.predicate.isSome

/-- The name of the index on a table. -/
def name (spec : IndexShape) (table : String) (unique : Bool) : String :=
  table ++ "_" ++ spec.joined ++ (if spec.isPartial then "_partial" else "")
    ++ (if unique then "_unique" else "")

/-- What tells the indexes of one list apart: joined columns, and whether there is a condition. -/
def key (spec : IndexShape) : String × Bool :=
  (spec.joined, spec.isPartial)

/-- The first index of a list whose key an earlier one has. -/
def repeated? (seen : List (String × Bool)) : List IndexShape → Option IndexShape
  | [] => none
  | spec :: rest =>
    if seen.contains spec.key then some spec else repeated? (spec.key :: seen) rest

end IndexShape

end AccountHistory
