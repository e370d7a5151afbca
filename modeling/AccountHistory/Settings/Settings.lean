import AccountHistory.RateLimit.Limits
import AccountHistory.Settings.Environment
import AccountHistory.Text.Letter

/-!
# Settings

Where the database and the migrations are, how often the methods of the exchange may be called, and
from when on collections are fetched. Names are written by hand: `tidy` trims them, keeps the first
of those that then agree, and refuses what makes no sense, so that tidy settings pace exactly the
methods that they name.
-/

namespace AccountHistory

open Text

/-! ## What can be set -/

/-- A ceiling as it is written. -/
inductive CeilingSetting where
  /-- so many calls in a period -/
  | count (n : Int)
  /-- a word; the only one with a meaning is `unlimited` -/
  | keyword (word : String)
  deriving DecidableEq, Repr

/-- What can be set. -/
structure Settings where
  /-- where the database is -/
  databaseUrl : Option String
  /-- where the migrations are -/
  migrationsDir : Option String
  /-- the length of the period of rate limits, in milliseconds -/
  period : Int
  /-- the ceilings of methods, in order -/
  methods : List (String × CeilingSetting)
  /-- the times from which on collections are fetched, in milliseconds, in order -/
  starts : List (String × Int)
  deriving DecidableEq, Repr

/-- Nothing is set. -/
def Settings.empty : Settings := ⟨none, none, RateLimits.defaultPeriod, [], []⟩

/-- The word for a method that is never paced. -/
def CeilingSetting.unlimitedWord : String := "unlimited"

/-- The ceiling that is meant, if what is written means one. -/
def CeilingSetting.ceiling? : CeilingSetting → Option Ceiling
  | .count n => if 0 < n ∧ Width.word32.holds n then some (.limited n.toNat) else none
  | .keyword word => if word = unlimitedWord then some .unlimited else none

/-! ## Errors -/

/-- What is wrong with settings. -/
inductive SettingsError where
  /-- a period without length -/
  | period (n : Int)
  /-- a ceiling for a method without a name -/
  | namelessMethod
  /-- a count that is no ceiling -/
  | count (method : String) (n : Int)
  /-- a word that is no ceiling -/
  | keyword (method word : String)
  /-- a start without a name -/
  | namelessStart
  /-- a start before all times -/
  | negativeStart (key : String) (time : Int)
  deriving DecidableEq, Repr

/-- The wording of an error. -/
def SettingsError.message : SettingsError → String
  | .period n => "rate_limits.period_ms must be positive, got " ++ toString n
  | .namelessMethod => "rate limit method name cannot be empty after trimming"
  | .count method n =>
    "rate limit for " ++ method ++ " must be a positive 32-bit count, got " ++ toString n
  | .keyword method word => "unknown rate limit keyword " ++ quote word ++ " for " ++ method
  | .namelessStart => "sync_start key cannot be empty after trimming"
  | .negativeStart key time =>
    "sync_start." ++ key ++ " must not be negative, got " ++ toString time

/-! ## Tidying -/

/-- What tidying changed. -/
structure TidyReport where
  /-- method names that lost blanks -/
  methodsRenamed : Nat
  /-- ceilings dropped because their method has one -/
  methodsDropped : Nat
  /-- words written otherwise -/
  keywordsRewritten : Nat
  /-- starts dropped because their name has one -/
  startsDropped : Nat
  deriving DecidableEq, Repr

namespace TidyReport

/-- Nothing was changed. -/
def unchanged : TidyReport := ⟨0, 0, 0, 0⟩

/-- One more name that lost blanks, if the two forms differ. -/
def renamed (r : TidyReport) (before after : String) : TidyReport :=
  if before = after then r else { r with methodsRenamed := r.methodsRenamed + 1 }

/-- One more word written otherwise, if the two forms differ. -/
def reworded (r : TidyReport) (before after : CeilingSetting) : TidyReport :=
  if before = after then r else { r with keywordsRewritten := r.keywordsRewritten + 1 }

end TidyReport

namespace Settings

/-- A ceiling in its tidy form. -/
def tidyCeiling (method : String) : CeilingSetting → Except SettingsError CeilingSetting
  | .count n =>
    if 0 < n ∧ Width.word32.holds n then .ok (.count n) else .error (.count method n)
  | .keyword word =>
    if lower (trim word) = CeilingSetting.unlimitedWord then
      .ok (.keyword CeilingSetting.unlimitedWord)
    else .error (.keyword method word)

/-- The name has a value already. -/
def isTaken {α : Type} (kept : List (String × α)) (name : String) : Bool :=
  kept.any fun k => k.1 == name

/-- Ceilings in their tidy form, behind those kept so far. -/
def tidyMethods (kept : List (String × CeilingSetting)) (report : TidyReport) :
    List (String × CeilingSetting) →
    Except SettingsError (List (String × CeilingSetting) × TidyReport)
  | [] => .ok (kept, report)
  | (written, c) :: rest =>
    let name := trim written
    let report := report.renamed written name
    if name = "" then .error .namelessMethod
    else if isTaken kept name then
      tidyMethods kept { report with methodsDropped := report.methodsDropped + 1 } rest
    else
      match tidyCeiling name c with
      | .error e => .error e
      | .ok tidied => tidyMethods (kept ++ [(name, tidied)]) (report.reworded c tidied) rest

/-- Starts in their tidy form, behind those kept so far. -/
def tidyStarts (kept : List (String × Int)) (report : TidyReport) :
    List (String × Int) → Except SettingsError (List (String × Int) × TidyReport)
  | [] => .ok (kept, report)
  | (written, time) :: rest =>
    let key := trim written
    if key = "" then .error .namelessStart
    else if time < 0 then .error (.negativeStart key time)
    else if isTaken kept key then
      tidyStarts kept { report with startsDropped := report.startsDropped + 1 } rest
    else tidyStarts (kept ++ [(key, time)]) report rest

/-- Settings in their tidy form, and what was changed. -/
def tidy (s : Settings) : Except SettingsError (Settings × TidyReport) :=
  if s.period ≤ 0 then .error (.period s.period)
  else
    match tidyMethods [] .unchanged s.methods with
    | .error e => .error e
    | .ok (methods, report) =>
      match tidyStarts [] report s.starts with
      | .error e => .error e
      | .ok (starts, report) => .ok ({ s with methods := methods, starts := starts }, report)

/-! ## What is in force -/

/-- The variable that says where the database is. -/
def databaseUrlVariable : String := "ACCOUNT_MIRROR_DATABASE_URL"

/-- The variable that says how long the period of rate limits is. -/
def periodVariable : String := "ACCOUNT_MIRROR_RATE_PERIOD_MS"

/-- Why settings are of no use. -/
inductive Unusable where
  /-- nothing says where the database is -/
  | noDatabase
  /-- a variable cannot be read -/
  | environment (error : EnvironmentError)
  /-- a period without length -/
  | period (n : Int)
  /-- ceilings that pace nothing -/
  | rateLimits (error : LimitError)
  deriving DecidableEq, Repr

/-- What is of no use. -/
def Unusable.context : Unusable → String
  | .noDatabase => "no database_url configured and " ++ databaseUrlVariable ++ " is unset"
  | .environment error => error.message
  | .period n => periodVariable ++ " must be positive, got " ++ toString n
  | .rateLimits _ => "invalid rate limit settings"

/-- The wording of an error: what is of no use and, if there is more to say, why. -/
def Unusable.message (e : Unusable) : String :=
  match e with
  | .rateLimits error => e.context ++ ": " ++ error.message
  | e => e.context

/-- The ceilings that are meant; what means none is passed over. -/
def ceilings (s : Settings) : List (String × Ceiling) :=
  s.methods.filterMap fun m => m.2.ceiling?.map fun c => (m.1, c)

/-- The time from which on a collection is fetched. -/
def configuredStart? (s : Settings) (key : String) : Option Int :=
  (s.starts.find? fun k => k.1 == key).map Prod.snd

/-- Where the database is. -/
def database (s : Settings) (env : Environment) : Except Unusable String :=
  match env.get? databaseUrlVariable with
  | some url => .ok url
  | none =>
    match s.databaseUrl with
    | some url => .ok url
    | none => .error .noDatabase

/-- The limits that pace the methods. -/
def rateLimits (s : Settings) (env : Environment) : Except Unusable RateLimits :=
  match env.readOr (Environment.integer .int64) periodVariable s.period with
  | .error e => .error (.environment e)
  | .ok period =>
    if period ≤ 0 then .error (.period period)
    else (RateLimits.new period s.ceilings).mapError .rateLimits

end Settings

end AccountHistory
