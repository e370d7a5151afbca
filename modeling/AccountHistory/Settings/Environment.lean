import AccountHistory.Number.Integer
import AccountHistory.Text.Blank
import AccountHistory.Text.Quoted

/-!
# The environment

Variables of the environment override what is written in a file. A variable that holds nothing but
blanks is as good as none; a value is read without the blanks around it, and a value that cannot be
read is an error, never a default.
-/

namespace AccountHistory

open Text

/-- The variables of the environment with their values. -/
structure Environment where
  /-- names and values -/
  entries : List (String × String)
  deriving DecidableEq, Repr

/-- Why the environment does not give a value. -/
inductive EnvironmentError where
  /-- there is no such variable, or it is blank -/
  | missing (name : String)
  /-- the value cannot be read -/
  | invalid (name value reason : String)
  deriving DecidableEq, Repr

/-- The wording of an error. -/
def EnvironmentError.message : EnvironmentError → String
  | .missing name => "Missing environment variable: " ++ name
  | .invalid name value reason =>
    "Invalid value for environment variable " ++ name ++ ": " ++ quote value ++ " (" ++ reason
      ++ ")"

namespace Environment

/-- The value of a variable, unless it is blank. -/
def get? (env : Environment) (name : String) : Option String :=
  ((env.entries.find? fun v => v.1 == name).map Prod.snd).filter fun v => !isBlankText v

/-- The value of a variable that has to be there. -/
def get (env : Environment) (name : String) : Except EnvironmentError String :=
  match env.get? name with
  | some value => .ok value
  | none => .error (.missing name)

/-- The value of a variable as `read` reads it, or `default` if there is none. -/
def readOr {α : Type} (env : Environment) (read : String → Except String α) (name : String)
    (default : α) : Except EnvironmentError α :=
  match env.get? name with
  | none => .ok default
  | some value =>
    match read (trim value) with
    | .ok a => .ok a
    | .error reason => .error (.invalid name value reason)

/-- Reads an integer of a width. -/
def integer (w : Width) (text : String) : Except String Int :=
  (w.read text).mapError IntegerFault.message

/-- Reads a truth value. -/
def truth (text : String) : Except String Bool :=
  if text = "true" then .ok true
  else if text = "false" then .ok false
  else .error "provided string was not `true` or `false`"

/-- Reads any text. -/
def text (s : String) : Except String String :=
  .ok s

end Environment

end AccountHistory
