/-!
# Sliding windows

Calls to a method of the exchange are paced: within any period, no more calls than a limit. A
`CallWindow` remembers the times of the calls of the last period, in the order in which they were
made. A call leaves the window when it is older than the period, never because there are many; so a
burst up to the limit is allowed, and quiet time restores room.

Times are in milliseconds and come from the caller.
-/

namespace AccountHistory

/-- The calls of the last period. -/
structure CallWindow where
  /-- how many calls a period allows -/
  limit : Nat
  /-- the length of a period -/
  period : Int
  /-- the times of the calls, the oldest first -/
  calls : List Int
  deriving DecidableEq, Repr

namespace CallWindow

/-- A window without calls. -/
def new (limit : Nat) (period : Int) : CallWindow := ⟨limit, period, []⟩

/-- The calls not older than the period at `now`: those in front that are older are dropped. -/
def recent (period now : Int) (calls : List Int) : List Int :=
  calls.dropWhile fun t => t < now - period

/-- The window at `now`. -/
def trim (w : CallWindow) (now : Int) : CallWindow :=
  { w with calls := recent w.period now w.calls }

/-- Notes a call at `now`. -/
def record (w : CallWindow) (now : Int) : CallWindow :=
  { w with calls := recent w.period now (w.calls ++ [now]) }

/-- There is no room for another call. -/
def isFull (w : CallWindow) : Bool :=
  w.limit ≤ w.calls.length

/-- Whether there is no room at `now`, and the window at that time. -/
def atLimit (w : CallWindow) (now : Int) : Bool × CallWindow :=
  ((w.trim now).isFull, w.trim now)

/-- How long a window without room has to wait at `now` until its oldest call leaves it. -/
def untilRoom (w : CallWindow) (now : Int) : Int :=
  match w.calls with
  | [] => 0
  | oldest :: _ => max 0 (oldest + w.period + 1 - now)

/-- How long to wait at `now` until there may be room, and the window at that time; zero if there is
room. -/
def wait (w : CallWindow) (now : Int) : Int × CallWindow :=
  let w' := w.trim now
  (if w'.isFull then w'.untilRoom now else 0, w')

end CallWindow

end AccountHistory
