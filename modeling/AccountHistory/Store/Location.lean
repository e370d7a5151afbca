import AccountHistory.Number.Integer

/-!
# Where databases lie

The address of a database is a path, perhaps behind a scheme. A path may also be written as a URI,
in which characters stand behind percent signs and options behind a question mark. An address with
an empty path, or with the path `:memory:`, stands for a database that is kept nowhere.
-/

namespace AccountHistory.Store

/-- Where a database lies. -/
inductive Location where
  /-- nowhere: it lasts as long as its session -/
  | transient
  /-- in a file, which must be there, or is made if it is not -/
  | file (path : String) (mustExist : Bool)
  deriving DecidableEq, Repr

namespace Location

/-! ## Schemes -/

/-- What follows a mark in front. -/
def behind? (mark : String) (cs : List Char) : Option (List Char) :=
  if mark.toList.isPrefixOf cs then some (cs.drop mark.length) else none

/-- The longer form of the scheme of addresses. -/
def longScheme : String := "sqlite://"

/-- The shorter form of the scheme of addresses. -/
def shortScheme : String := "sqlite:"

/-- The path that an address stands for: the scheme in front is dropped, once. -/
def pathOf (url : String) : String :=
  match (behind? longScheme url.toList).or (behind? shortScheme url.toList) with
  | some rest => String.ofList rest
  | none => url

/-- The complaint about a database that cannot be opened. -/
def openFailure (path : String) : String :=
  "opening sqlite database " ++ path

/-! ## Paths written as URIs -/

/-- The bytes of a part of a URI, up to a byte of value zero. -/
def decodedBytes : List Char → List UInt8
  | '%' :: a :: b :: cs =>
    if isHexDigit a && isHexDigit b then
      let n := ofHexDigits [a, b]
      if n = 0 then [] else n.toUInt8 :: decodedBytes cs
    else '%'.toUInt8 :: decodedBytes (a :: b :: cs)
  | c :: cs => (String.singleton c).toUTF8.data.toList ++ decodedBytes cs
  | [] => []

/-- The text of a part of a URI. -/
def decoded? (cs : List Char) : Option String :=
  String.fromUTF8? ⟨(decodedBytes cs).toArray⟩

/-- What follows the authority of a URI, which may only be this machine. -/
def behindAuthority? (cs : List Char) : Option (List Char) :=
  match behind? "//" cs with
  | none => some cs
  | some rest =>
    let authority := String.ofList (rest.takeWhile (· ≠ '/'))
    if authority = "" ∨ authority = "localhost" then some (rest.dropWhile (· ≠ '/')) else none

/-- How a URI wants its file opened. -/
inductive Mode where
  /-- as a file that is made if it is not there -/
  | making
  /-- as a file that is there -/
  | existing
  /-- not as a file at all -/
  | memory
  deriving DecidableEq, Repr

/-- The mode after an option; `none` for an option that is not known by its value. -/
def modeAfter? (mode : Mode) (cs : List Char) : Option Mode := do
  let key ← decoded? (cs.takeWhile (· ≠ '='))
  let value ← decoded? ((cs.dropWhile (· ≠ '=')).drop 1)
  match key, value with
  | "mode", "rwc" => return .making
  | "mode", "rw" | "mode", "ro" => return .existing
  | "mode", "memory" => return .memory
  | "cache", "shared" | "cache", "private" => return mode
  | "mode", _ | "cache", _ | "vfs", _ => none
  | _, _ => return mode

/-- The location of a path: one that is empty, or that names the memory, is transient. -/
def ofPath (path : String) (mustExist : Bool) : Location :=
  if path = "" ∨ path = ":memory:" then .transient else .file path mustExist

/-- The location that a URI stands for, its scheme being dropped. -/
def ofUri? (cs : List Char) : Option Location := do
  let cs ← behindAuthority? (cs.takeWhile (· ≠ '#'))
  let path ← decoded? (cs.takeWhile (· ≠ '?'))
  let options := ((cs.dropWhile (· ≠ '?')).drop 1).splitOn '&'
  let mode ← options.foldlM modeAfter? .making
  return match mode with
    | .memory => .transient
    | mode => ofPath path (mode == .existing)

/-! ## Addresses -/

/-- The scheme of files. -/
def fileScheme : String := "file:"

/-- The location that an address stands for; `none` for one that stands for none. A second scheme
is that of a file. -/
def ofUrl? (url : String) : Option Location :=
  let path := (pathOf url).toList
  if path.contains '\x00' then none
  else
    match (behind? longScheme path).or (behind? fileScheme path) with
    | some rest => ofUri? rest
    | none => some (ofPath (String.ofList path) false)

end Location

end AccountHistory.Store
