import AccountHistory.Cli.Run

/-!
# Requests in a folder of memory

A site that has no machine behind it: texts and databases by their places in a tree of directories.
The directories are those in which a text lies, those above the one at hand, the root, and one for
what is not to be kept.

* A text is reached as a machine reaches it: every step on the way must lead into a directory;
* the way to a database is shortened first, so that a step up takes back the one before it.
-/

namespace AccountHistory.Cli

open Store

/-! ## Places -/

/-- A place in the tree of directories, from the root or from the directory at hand. -/
structure Place where
  /-- from the root -/
  fromRoot : Bool
  /-- the steps, those up in front -/
  steps : List String
  deriving DecidableEq, Repr

namespace Place

/-- A step up. -/
def up : String := ".."

/-- The place behind one more step. There is nothing above the root. -/
def enter (p : Place) (step : String) : Place :=
  if step = "" ∨ step = "." then p
  else if step = up then
    match p.steps.getLast? with
    | none => if p.fromRoot then p else ⟨false, [up]⟩
    | some last => ⟨p.fromRoot, if last = up then p.steps ++ [up] else p.steps.dropLast⟩
  else ⟨p.fromRoot, p.steps ++ [step]⟩

/-- The place at which a path starts. -/
def startOf (path : String) : Place := ⟨path.toList.head? == some '/', []⟩

/-- The steps of a path, as they are written. -/
def stepsOf (path : String) : List String :=
  (path.toList.splitOn '/').map String.ofList

/-- The place that a path names, shortened. -/
def ofText (path : String) : Place :=
  (stepsOf path).foldl enter (startOf path)

/-- The directory in which the place lies. -/
def parent (p : Place) : Place := p.enter up

end Place

/-! ## Folders -/

/-- Texts and databases by place. -/
structure Folder where
  /-- texts, by their paths from the directory at hand -/
  texts : List (String × String)
  /-- databases; the first of a place counts -/
  databases : List (Place × Database)

namespace Folder

/-- The place of the directory for what is not to be kept. -/
def spare : Place := ⟨true, ["tmp"]⟩

/-- There is a directory at the place. -/
def isDirectory (f : Folder) (p : Place) : Bool :=
  if p.fromRoot then p.steps.isEmpty || p == spare
  else
    p.steps.all (· == Place.up)
      || f.texts.any fun t =>
        let steps := Place.stepsOf t.1
        p.steps.isPrefixOf steps && p.steps.length < steps.length

/-- The place that a path leads to, if every step on the way leads into a directory. -/
def reached? (f : Folder) (path : String) : Option Place :=
  (Place.stepsOf path).foldlM (fun p step => if f.isDirectory p then some (p.enter step) else none)
    (Place.startOf path)

/-- The text at a place. -/
def textAt? (f : Folder) (p : Place) : Option String :=
  (f.texts.find? fun t => Place.ofText t.1 == p).map Prod.snd

/-- The text that a path leads to. -/
def readText (f : Folder) (path : String) : Option String :=
  (f.reached? path).bind f.textAt?

/-- What lies directly in a directory: the name of a text or of a directory, and the text. -/
def entriesOf (f : Folder) (p : Place) : List (String × Option String) :=
  f.texts.filterMap fun t =>
    let steps := Place.stepsOf t.1
    if p.fromRoot || !p.steps.isPrefixOf steps then none
    else
      match steps.drop p.steps.length with
      | [] => none
      | [name] => some (name, some t.2)
      | name :: _ => some (name, none)

/-- The directory of migrations that a path leads to. -/
def readDirectory (f : Folder) (path : String) : MigrationDirectory :=
  let entry (e : String × Option String) : DirectoryEntry × Option String :=
    (⟨e.1, some (path ++ "/" ++ e.1), e.2.isSome⟩, e.2)
  match f.reached? path with
  | none => ⟨path, none⟩
  | some p => ⟨path, if f.isDirectory p then some ((f.entriesOf p).map entry) else none⟩

/-- What is found where a database is looked for. A text is no database unless it is empty. -/
def openFile (f : Folder) (path : String) : Opening :=
  let p := Place.ofText path
  match f.databases.lookup p, f.textAt? p with
  | some db, _ => .found db
  | none, some text => if text = "" then .found .empty else .foreign
  | none, none =>
    if f.isDirectory p || !f.isDirectory p.parent then .impossible else .absent

/-- The folder with a database kept at a path. -/
def keep (f : Folder) (path : String) (db : Database) : Folder :=
  { f with databases := (Place.ofText path, db) :: f.databases }

/-- The folder as a site. -/
def site (environment : Environment) (clock : Int) : Site (StateM Folder) where
  environment := environment
  clock := clock
  readText path := return (← get).readText path
  readDirectory path := return (← get).readDirectory path
  openFile path := return (← get).openFile path
  keepFile path db := modify fun f => f.keep path db

end Folder

end AccountHistory.Cli
