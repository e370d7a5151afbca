import AccountHistory.Json.Printer
import AccountHistory.Settings.Settings
import AccountHistory.Toml.Reader

/-!
# Settings files

Settings are written as a TOML document with two names and two tables. A name that means nothing
here is refused, wherever it stands, and so is a value of another kind. The names inside a table are
taken in their order by code points, whatever the order of writing.
-/

namespace AccountHistory.Settings

/-! ## Parts of a document -/

/-- The value of a name that may be missing, as `read` reads it; `none` if it is of another kind. -/
def optional? {α : Type} (read : Toml → Option α) (fields : TomlFields) (name : String) :
    Option (Option α) :=
  match Toml.field? fields name with
  | none => some none
  | some v => (read v).map some

/-- A string. -/
def string? : Toml → Option String
  | .str s => some s
  | _ => none

/-- An integer. -/
def integer? : Toml → Option Int
  | .int n => some n
  | _ => none

/-- A ceiling: a count or a word. -/
def ceilingSetting? : Toml → Option CeilingSetting
  | .int n => some (.count n)
  | .str s => some (.keyword s)
  | _ => none

/-- The name under which a moment stands where a table is asked for. -/
def momentName : String := "$__toml_private_datetime"

/-- A table of values of one kind, in the order of the names. A moment counts as a table of one
name, under which its text stands. -/
def entries? {α : Type} (read : Toml → Option α) : Toml → Option (List (String × α))
  | .table _ fields =>
    (Json.sortFields fields).mapM fun f => (read f.2).map fun v => (f.1, v)
  | .moment m => (read (.str m.text)).map fun v => [(momentName, v)]
  | _ => none

/-- No name of a table is unknown. -/
def allKnown (names : List String) (fields : TomlFields) : Bool :=
  fields.all fun f => names.contains f.1

/-! ## Documents -/

/-- The period and the ceilings of rate limits. They may also be written as the first two items of
an array. -/
def rateLimits? : Toml → Option (Int × List (String × CeilingSetting))
  | .table _ fields => do
    if !allKnown ["period_ms", "methods"] fields then none
    let period ← optional? integer? fields "period_ms"
    let methods ← optional? (entries? ceilingSetting?) fields "methods"
    return (period.getD RateLimits.defaultPeriod, methods.getD [])
  | .arr items => do
    let period ← (items[0]?).mapM integer?
    let methods ← (items[1]?).mapM (entries? ceilingSetting?)
    return (period.getD RateLimits.defaultPeriod, methods.getD [])
  | _ => none

/-- The settings that a document writes. -/
def ofDocument? (fields : TomlFields) : Option Settings := do
  if !allKnown ["database_url", "migrations_dir", "rate_limits", "sync_start"] fields then none
  let databaseUrl ← optional? string? fields "database_url"
  let migrationsDir ← optional? string? fields "migrations_dir"
  let limits ← optional? rateLimits? fields "rate_limits"
  let starts ← optional? (entries? integer?) fields "sync_start"
  let (period, methods) := limits.getD (RateLimits.defaultPeriod, [])
  return ⟨databaseUrl, migrationsDir, period, methods, starts.getD []⟩

/-! ## Loading -/

/-- Why a file gives no settings. -/
inductive LoadError where
  /-- the file cannot be read -/
  | unreadable (path : String)
  /-- the text is no document of settings -/
  | malformed
  /-- the settings make no sense -/
  | rejected (error : SettingsError)
  deriving DecidableEq, Repr

/-- What was being done. -/
def LoadError.context : LoadError → String
  | .unreadable path => "read config file " ++ path
  | .malformed => "failed to parse config TOML"
  | .rejected _ => "normalize_config failed"

/-- The wording of an error: what was being done and, if known, what went wrong. -/
def LoadError.message (e : LoadError) : String :=
  match e with
  | .rejected error => e.context ++ ": " ++ error.message
  | e => e.context

/-- The tidy settings that a text writes. -/
def load (text : String) : Except LoadError Settings :=
  match (Toml.parse? text).bind ofDocument? with
  | none => .error .malformed
  | some s =>
    match s.tidy with
    | .error e => .error (.rejected e)
    | .ok (s, _) => .ok s

/-- The tidy settings of a file, of which the text is known if it can be read. -/
def loadFile (path : String) (text : Option String) : Except LoadError Settings :=
  match text with
  | none => .error (.unreadable path)
  | some text => load text

end AccountHistory.Settings
