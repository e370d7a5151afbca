import AccountHistory.Store.Session

/-!
# Users

The users whose records are kept. A sub-account is a user too. With a user go the records of that
user.
-/

namespace AccountHistory.Users

open Store Sql

/-- The table of users. -/
def table : String := "users"

/-- The column of the identifier of a user. -/
def idColumn : String := "_id"

/-- The values of a new user. -/
def newRow (email username : String) (isSub : Bool) : List (String × Value) :=
  [("email", .text email), ("username", .text username),
    ("isSubAccount", .int (if isSub then 1 else 0))]

/-- The identifier of the user who came to the table since it held the rows `before`. -/
def newId (before : List Int) (t : Table) : Except Fault Int :=
  match ((t.rows.find? fun r => !before.contains r.id).bind fun r => t.operand? r idColumn).map
      Operand.value with
  | none => .error (.refused (.noSuchColumn idColumn))
  | some .null => .error (.refused (.noValue idColumn))
  | some id => .ok id.integer

/-- Adds a user: the session in which the user is stored, and the new identifier. Where a user gets
no identifier, the user is stored all the same. -/
def add (s : Session) (email username : String) (isSub : Bool) : Session × Except Fault Int :=
  let row := newRow email username isSub
  match s.database.getTable table with
  | .error e => (s, .error e)
  | .ok t =>
    if (t.unsettable? [idColumn]).isSome then (s, .error (.refused (.noSuchColumn idColumn)))
    else
      match s.database.insert s.terms false table (row.map Prod.fst) [row.map Prod.snd] with
      | .error e => (s, .error e)
      | .ok db => (s.withDatabase db, (db.getTable table).bind (newId (t.rows.map Row.id)))

/-- Removes the user of an identifier: the number of users that went, and the session without them.
-/
def remove (s : Session) (id : Int) : Except Fault (Nat × Session) :=
  let isUser : Expr := .binary .eq (.column .current idColumn) (.const (.int id))
  match s.database.delete s.terms table (some isUser) with
  | .error e => .error e
  | .ok db =>
    let count (db : Database) : Nat := (db.table? table).elim 0 fun t => t.rows.length
    .ok (count s.database - count db, s.withDatabase db)

end AccountHistory.Users
