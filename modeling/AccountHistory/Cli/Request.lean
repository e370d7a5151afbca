import AccountHistory.Number.Integer

/-!
# Requests on the command line

A request is a command with its arguments and perhaps the path of a settings file, which may stand
before or after the name of the command. Each command says in a `Shape` what it takes; the words of
the command line are sorted by it, and whatever does not fit makes no request.
-/

namespace AccountHistory.Cli

/-! ## Commands -/

/-- What can be asked for. -/
inductive Command where
  /-- make or upgrade the tables, with migrations from a directory -/
  | migrate (directory : Option String)
  /-- compare the tables with their models -/
  | validate
  /-- make a table anew, keeping its rows -/
  | rebuild (table : String)
  /-- drop all tables -/
  | dropAll (ifExists : Bool)
  /-- list the collections -/
  | collections (isShared : Bool)
  /-- show the checkpoints of a collection, of everybody or of a user -/
  | checkpoints (collection : String) (user : Option (Int × Option Int))
  deriving DecidableEq, Repr

/-- A command, and where the settings are. -/
structure Request where
  /-- the path of the settings file -/
  config : Option String
  /-- the command -/
  command : Command
  deriving DecidableEq, Repr

/-- Why the command line makes no request. -/
inductive NoRequest where
  /-- something does not fit -/
  | misused
  /-- the help on a command, or on all of them -/
  | help (command : Option String)
  /-- the version of the program -/
  | version
  deriving DecidableEq, Repr

/-! ## Shapes -/

/-- What an option takes as its value. -/
inductive ValueKind where
  /-- a path, which is not empty -/
  | path
  /-- an identifier -/
  | identifier
  deriving DecidableEq, Repr

/-- The text is a value of the kind. -/
def ValueKind.accepts : ValueKind → String → Bool
  | .path, text => text != ""
  | .identifier, text => (Width.int64.read? text).isSome

/-- An option with a value. -/
structure OptionShape where
  /-- its name -/
  name : String
  /-- what it takes -/
  kind : ValueKind
  /-- the name of the value in a help -/
  valueName : String
  /-- what it is for -/
  purpose : String

/-- What a command takes. -/
structure Shape where
  /-- its name -/
  name : String
  /-- what it does -/
  purpose : String
  /-- options with a value -/
  options : List OptionShape
  /-- options without a value: name and purpose -/
  flags : List (String × String)
  /-- the names of the words it needs -/
  words : List String

/-- The option for the path of the settings file. -/
def configOption : OptionShape := ⟨"--config", .path, "FILE", "Config file (TOML)"⟩

/-- The commands. -/
def shapes : List Shape :=
  [⟨"migrate", "Create or upgrade the schema",
     [⟨"--dir", .path, "DIR", "Directory with migration.v<version>[.<mts>].sql files"⟩], [], []⟩,
   ⟨"validate", "Compare the live schema with the table models", [], [], []⟩,
   ⟨"rebuild", "Recreate a table from its model, keeping its rows", [], [], ["TABLE"]⟩,
   ⟨"drop-all", "Drop every table and reset the schema version", [], [("--if-exists", "")], []⟩,
   ⟨"collections", "List the mirrored collections", [], [("--public", "")], []⟩,
   ⟨"checkpoints", "Show stored checkpoints of a collection and the next fetch window",
     [⟨"--user", .identifier, "USER", "Owner; omit for public collections"⟩,
      ⟨"--sub-user", .identifier, "SUB_USER", ""⟩], [], ["COLLECTION"]⟩]

/-- The shape of a command. -/
def shape? (name : String) : Option Shape :=
  shapes.find? fun s => s.name == name

/-! ## Words -/

/-- The words of a command line, sorted. -/
structure Words where
  /-- options with their values -/
  options : List (String × String)
  /-- options without a value -/
  flags : List String
  /-- all other words -/
  plain : List String

/-- The word is an option, or ends the options. -/
def isOption (word : String) : Bool :=
  match word.toList with
  | '-' :: _ :: _ => true
  | _ => false

/-- The name of an option and the value behind its equals sign. -/
def splitOption (word : String) : String × Option String :=
  let cs := word.toList
  match cs.dropWhile (· ≠ '=') with
  | [] => (word, none)
  | _ :: value => (String.ofList (cs.takeWhile (· ≠ '=')), some (String.ofList value))

/-- The value of an option. -/
def Words.option? (w : Words) (name : String) : Option String :=
  (w.options.find? fun o => o.1 == name).map Prod.snd

/-- The words with one more option, unless it is there or takes no such value. -/
def Words.withOption (w : Words) (o : OptionShape) (value : String) : Option Words :=
  if (w.options.any fun p => p.1 == o.name) || !o.kind.accepts value then none
  else some { w with options := w.options ++ [(o.name, value)] }

/-- The words with one more option without a value, unless it is there. -/
def Words.withFlag (w : Words) (name : String) : Option Words :=
  if w.flags.contains name then none else some { w with flags := w.flags ++ [name] }

/-- The value of an option: behind its equals sign, or the next word, which is no option then. Also
how many words it takes. -/
def valueOf (value : Option String) (rest : List String) : Option (String × Nat) :=
  match value, rest with
  | some v, _ => some (v, 0)
  | none, v :: _ => if isOption v then none else some (v, 1)
  | none, [] => none

/-- The word is the long name, or a row of letters behind one dash that begins with the letter: what
follows the letter is not looked at. -/
def asks (letter : Char) (long word : String) : Bool :=
  word == long || ['-', letter].isPrefixOf word.toList

/-- The word asks for help. -/
def asksHelp (word : String) : Bool := asks 'h' "--help" word

/-- The word asks for the version. -/
def asksVersion (word : String) : Bool := asks 'V' "--version" word

/-- Sorts words by a shape. After two dashes every word stands for itself. -/
def sortWords (s : Shape) (isLiteral : Bool) (found : Words) :
    List String → Except NoRequest Words
  | [] => .ok found
  | word :: rest =>
    if isLiteral || !isOption word then
      if found.plain.length < s.words.length then
        sortWords s isLiteral { found with plain := found.plain ++ [word] } rest
      else .error .misused
    else if word = "--" then sortWords s true found rest
    else if asksHelp word then .error (.help (some s.name))
    else
      let (name, value) := splitOption word
      match s.options.find? fun o => o.name == name with
      | some o =>
        match valueOf value rest with
        | none => .error .misused
        | some (v, used) =>
          match found.withOption o v with
          | none => .error .misused
          | some found => sortWords s false found (rest.drop used)
      | none =>
        if (s.flags.any fun f => f.1 == name) && value.isNone then
          match found.withFlag name with
          | none => .error .misused
          | some found => sortWords s false found rest
        else .error .misused
termination_by words => words.length
decreasing_by all_goals simp; try omega

/-! ## From words to commands -/

/-- The identifier that an option gives. -/
def Words.identifier? (w : Words) (name : String) : Option Int :=
  (w.option? name).bind Width.int64.read?

/-- The command of a name with its words. -/
def command (name : String) (w : Words) : Except NoRequest Command :=
  match name, w.plain with
  | "migrate", [] => .ok (.migrate (w.option? "--dir"))
  | "validate", [] => .ok .validate
  | "rebuild", [table] => .ok (.rebuild table)
  | "drop-all", [] => .ok (.dropAll (w.flags.contains "--if-exists"))
  | "collections", [] => .ok (.collections (w.flags.contains "--public"))
  | "checkpoints", [collection] =>
    match w.identifier? "--user", w.identifier? "--sub-user" with
    | some id, sub => .ok (.checkpoints collection (some (id, sub)))
    | none, none => .ok (.checkpoints collection none)
    | none, some _ => .error .misused
  | _, _ => .error .misused

/-- The help that is asked for by the words after `help`. -/
def helpOn : List String → NoRequest
  | [] => .help none
  | [name] => if (shape? name).isSome || name = "help" then .help (some name) else .misused
  | _ => .misused

/-- What the words after the name of a command ask of it, and the settings file named there. -/
def commandOf (s : Shape) (words : List String) : Except NoRequest (Option String × Command) := do
  let words ← sortWords { s with options := s.options ++ [configOption] } false ⟨[], [], []⟩ words
  return (words.option? configOption.name, ← command s.name words)

/-- The answer once it is known whether the word before the command was sound: help is given all the
same. -/
def onlyIf {α : Type} (isSound : Bool) : Except NoRequest α → Except NoRequest α
  | .error (.help name) => .error (.help name)
  | answer => if isSound then answer else .error .misused

/-- The request that words make, the name of the command being among them. Of the options in front
of the command, each is looked at when the next one comes, the last one when the command is known:
`isSound` says that the one before was the first of its name with a value that it takes. -/
def requestFrom (config : Option String) (isSound : Bool) : List String → Except NoRequest Request
  | [] => .error .misused
  | word :: rest =>
    if isOption word then
      let (name, value) := splitOption word
      if !isSound then .error .misused
      else if asksHelp word then .error (.help none)
      else if asksVersion word then .error .version
      else if name = configOption.name then
        match valueOf value rest with
        | none => .error .misused
        | some (v, used) =>
          let isSound := config.isNone && configOption.kind.accepts v
          if value.isSome && !isSound then .error .misused
          else requestFrom (some v) isSound (rest.drop used)
      else .error .misused
    else if word = "help" then .error (helpOn rest)
    else
      match shape? word with
      | none => .error .misused
      | some s => onlyIf isSound do
        let (inner, command) ← commandOf s rest
        return ⟨inner.or config, command⟩
termination_by words => words.length
decreasing_by all_goals simp; try omega

/-- The request that a command line makes. -/
def request (words : List String) : Except NoRequest Request :=
  requestFrom none true words

/-! ## Help -/

/-- The name of the program. -/
def programName : String := "account-mirror"

/-- The version of the program. -/
def versionText : String := "account_mirror 0.1.0"

/-- Two columns of text, the first as wide as its widest entry. The blanks between the columns stand
also where the second is empty. -/
def twoColumns (rows : List (String × String)) : List String :=
  let width := (rows.map fun r => r.1.length).foldl max 0
  rows.map fun r =>
    "  " ++ r.1 ++ String.ofList (List.replicate (width - r.1.length) ' ') ++ "  " ++ r.2

/-- The rows of options in a help. -/
def optionRows (options : List OptionShape) (flags : List (String × String)) :
    List (String × String) :=
  options.map (fun o => ("    " ++ o.name ++ " <" ++ o.valueName ++ ">", o.purpose))
    ++ flags.map (fun f => ("    " ++ f.1, f.2)) ++ [("-h, --help", "Print help")]

/-- What help does. -/
def helpPurpose : String := "Print this message or the help of the given subcommand(s)"

/-- The help on help. -/
def helpOnHelp : List String :=
  [helpPurpose, "", "Usage: " ++ programName ++ " help [COMMAND]...", "", "Arguments:"]
    ++ twoColumns [("[COMMAND]...", "Print help for the subcommand(s)")]

/-- The help on a command, or on all of them. -/
def helpText (name : Option String) : List String :=
  if name = some "help" then helpOnHelp else
  match name.bind shape? with
  | some s =>
    let words := s.words.map fun w => "<" ++ w ++ ">"
    [s.purpose, "", "Usage: " ++ " ".intercalate ([programName, s.name, "[OPTIONS]"] ++ words)]
      ++ (if words.isEmpty then [] else ["", "Arguments:"] ++ twoColumns (words.map (·, "")))
      ++ ["", "Options:"] ++ twoColumns (optionRows (configOption :: s.options) s.flags)
  | none =>
    ["Account mirror database CLI", "", "Usage: " ++ programName ++ " [OPTIONS] <COMMAND>", "",
      "Commands:"]
      ++ twoColumns (shapes.map (fun s => (s.name, s.purpose))
        ++ [("help", helpPurpose)])
      ++ ["", "Options:"]
      ++ twoColumns (optionRows [configOption] [] ++ [("-V, --version", "Print version")])

end AccountHistory.Cli
