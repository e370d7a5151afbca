import AccountHistory.Json.Value
import AccountHistory.RateLimit.Window

/-!
# Pacing the methods of an exchange

Each method has a ceiling and, once a limited method is used, a window. A method without a ceiling
of its own has the default one; an unlimited method is never paced and leaves no trace.

The limit of a window is the ceiling of its method at the time of the first use.
-/

namespace AccountHistory

/-! ## Ceilings -/

/-- How many calls a period allows. -/
inductive Ceiling where
  /-- at most so many -/
  | limited (limit : Nat)
  /-- any number -/
  | unlimited
  deriving DecidableEq, Repr

namespace Ceiling

/-- The ceiling as messages show it. -/
def shown : Ceiling → String
  | .limited n => "Limited(" ++ toString n ++ ")"
  | .unlimited => "Unlimited"

/-- The ceiling as a part of a document. -/
def toJson : Ceiling → Json
  | .limited n => .obj [("limited", .int n)]
  | .unlimited => .str "unlimited"

/-- A ceiling from a part of a document. -/
def ofJson? : Json → Option Ceiling
  | .str s => if s = "unlimited" then some .unlimited else none
  | .obj [("unlimited", .null)] => some .unlimited
  | .obj [("limited", .int n)] => if Width.word32.holds n then some (.limited n.toNat) else none
  | _ => none

end Ceiling

/-! ## Limits -/

/-- Why settings make no limits. -/
inductive LimitError where
  /-- a ceiling that would never allow a call -/
  | zeroCeiling (method : String)
  /-- a period without length -/
  | nonPositivePeriod (period : Int)
  deriving DecidableEq, Repr

/-- The wording of an error. -/
def LimitError.message : LimitError → String
  | .zeroCeiling method => "rate limit for " ++ method ++ " must allow at least one call per window"
  | .nonPositivePeriod period =>
    "rate limit period must be positive, got " ++ toString period ++ "ms"

/-- The windows and ceilings of the methods of an exchange. -/
structure RateLimits where
  /-- the length of a period, in milliseconds -/
  period : Int
  /-- the ceilings of methods -/
  ceilings : List (String × Ceiling)
  /-- the ceiling of all other methods -/
  defaultCeiling : Ceiling
  /-- the windows of the methods in use -/
  windows : List (String × CallWindow)
  deriving DecidableEq, Repr

namespace RateLimits

/-- A minute. -/
def defaultPeriod : Int := 60000

/-- Limits that pace nothing. -/
def standard : RateLimits := ⟨defaultPeriod, [], .unlimited, []⟩

/-- The name under which complaints speak of the default ceiling. -/
def defaultName : String := "<default>"

/-- A method whose ceiling would never allow a call. -/
def zeroCeiling? (ceilings : List (String × Ceiling)) : Option String :=
  (ceilings.find? fun c => c.2 == .limited 0).map Prod.fst

/-- Limits with a period and ceilings. -/
def new (period : Int) (ceilings : List (String × Ceiling)) :
    Except LimitError RateLimits :=
  if period ≤ 0 then .error (.nonPositivePeriod period)
  else
    match zeroCeiling? ceilings with
    | some method => .error (.zeroCeiling method)
    | none => .ok ⟨period, ceilings, .unlimited, []⟩

/-- The limits with another default ceiling. -/
def withDefault (r : RateLimits) (c : Ceiling) :
    Except LimitError RateLimits :=
  if c = .limited 0 then .error (.zeroCeiling defaultName) else .ok { r with defaultCeiling := c }

/-- The ceiling of a method. -/
def ceiling (r : RateLimits) (method : String) : Ceiling :=
  ((r.ceilings.find? fun c => c.1 == method).map Prod.snd).getD r.defaultCeiling

/-- The window of a method, a new one with the limit given if there is none. -/
def window (r : RateLimits) (method : String) (limit : Nat) : CallWindow :=
  ((r.windows.find? fun w => w.1 == method).map Prod.snd).getD (.new limit r.period)

/-- Puts a value under a name: in the place of the value that has the name, else at the end. -/
def put {α : Type} (name : String) (value : α) : List (String × α) → List (String × α)
  | [] => [(name, value)]
  | (n, v) :: rest => if n = name then (name, value) :: rest else (n, v) :: put name value rest

/-- The limits with the window of a method replaced. -/
def withWindow (r : RateLimits) (method : String) (w : CallWindow) : RateLimits :=
  { r with windows := put method w r.windows }

/-- Notes a call at `now`. -/
def record (r : RateLimits) (method : String) (now : Int) : RateLimits :=
  match r.ceiling method with
  | .unlimited => r
  | .limited limit => r.withWindow method ((r.window method limit).record now)

/-- Whether a method has no room at `now`. -/
def atLimit (r : RateLimits) (method : String) (now : Int) : Bool × RateLimits :=
  match r.ceiling method with
  | .unlimited => (false, r)
  | .limited limit =>
    let (full, w) := (r.window method limit).atLimit now
    (full, r.withWindow method w)

/-- Notes a call at `now` if there is room; otherwise says how long to wait before trying again. -/
def tryAcquire (r : RateLimits) (method : String) (now : Int) :
    Option Int × RateLimits :=
  match r.ceiling method with
  | .unlimited => (none, r)
  | .limited limit =>
    let (full, w) := (r.window method limit).atLimit now
    if full then
      let (pause, w) := w.wait now
      (some (max 1 pause), r.withWindow method w)
    else (none, r.withWindow method (w.record now))

/-- Tries until there is room, waiting as long as each try says: the time of the call, if there is
one within so many tries. -/
def acquireWithin (method : String) : Nat → RateLimits → Int →
    Option Int × RateLimits
  | 0, r, _ => (none, r)
  | tries + 1, r, now =>
    match r.tryAcquire method now with
    | (none, r') => (some now, r')
    | (some pause, r') => acquireWithin method tries r' (now + pause)

/-- Waits for room and notes a call. After each wait the oldest call has left the window, so the
number of calls bounds the number of tries. -/
def acquire (r : RateLimits) (method : String) (now : Int) :
    Option Int × RateLimits :=
  let known := ((r.windows.find? fun w => w.1 == method).map fun w => w.2.calls.length).getD 0
  acquireWithin method (known + 1) r now

end RateLimits

end AccountHistory
