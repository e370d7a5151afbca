import AccountHistory.Proofs.Pacing

/-!
# Limits that answer as if they forgot nothing

Limits forget the calls of a method lazily, and make its window on its first use. A naive account of
one method does neither:

* `Diary` keeps all calls that its method has ever made, counts those that are not older than the
  period, and compares their number with the ceiling. It knows of no other method;
* `Follows` relates limits to the diary of a method. Any use of any method keeps it up, and where it
  holds the two reply alike;
* `replies_eq_diary`: so whatever is asked of limits, the replies to each method are those of its
  diary.
-/

namespace AccountHistory

/-! ## Replies -/

/-- What is said to a use. -/
inductive Reply where
  /-- the call is noted -/
  | noted
  /-- whether the last period is full -/
  | full (isFull : Bool)
  /-- the call is granted, or is to be asked for again after a pause -/
  | asked (pause : Option Int)
  deriving DecidableEq, Repr

/-- There is no room for a call. -/
def Reply.isRefusal : Reply → Bool
  | .noted => false
  | .full isFull => isFull
  | .asked pause => pause.isSome

/-- What limits say to a use. -/
def Use.reply (u : Use) (r : RateLimits) : Reply :=
  match u.demand with
  | .note => .noted
  | .look => .full (r.atLimit u.method u.time).1
  | .acquire => .asked (r.tryAcquire u.method u.time).1

namespace RateLimits

/-- The uses of a method. -/
def own (method : String) (uses : List Use) : List Use :=
  uses.filter fun u => u.method = method

/-- What limits say to the uses of a method, where other methods are used as well. -/
def repliesTo (method : String) : List Use → RateLimits → List Reply
  | [], _ => []
  | u :: rest, r =>
    if u.method = method then u.reply r :: repliesTo method rest (u.leave r)
    else repliesTo method rest (u.leave r)

end RateLimits

/-! ## Diaries -/

/-- All calls of one method. -/
structure Diary where
  /-- how many calls a period allows -/
  ceiling : Ceiling
  /-- the length of a period -/
  period : Int
  /-- the times of all calls since the beginning -/
  calls : List Int
  deriving DecidableEq, Repr

namespace Diary

/-- A diary without calls. -/
def new (ceiling : Ceiling) (period : Int) : Diary := ⟨ceiling, period, []⟩

/-- The calls that are not older than the period at `now`. -/
def within (d : Diary) (now : Int) : List Int :=
  d.calls.filter fun t => now - d.period ≤ t

/-- The last period has as many calls as the ceiling allows. -/
def isFull (d : Diary) (now : Int) : Bool :=
  match d.ceiling with
  | .unlimited => false
  | .limited limit => limit ≤ (d.within now).length

/-- How long it takes at `now` until the oldest call of the last period is too old. -/
def pause (d : Diary) (now : Int) : Int :=
  (d.within now).min?.elim 1 fun oldest => oldest + d.period + 1 - now

/-- Notes a call. -/
def note (d : Diary) (now : Int) : Diary :=
  { d with calls := d.calls ++ [now] }

/-- What a diary says to a use of its method. -/
def reply (d : Diary) (u : Use) : Reply :=
  match u.demand with
  | .note => .noted
  | .look => .full (d.isFull u.time)
  | .acquire => .asked (if d.isFull u.time then some (d.pause u.time) else none)

/-- The diary after a use of its method. -/
def leave (d : Diary) (u : Use) : Diary :=
  match u.demand with
  | .note => d.note u.time
  | .look => d
  | .acquire => if d.isFull u.time then d else d.note u.time

/-- The diary after uses of its method, one after the other. -/
def leaveAll (d : Diary) (uses : List Use) : Diary :=
  uses.foldl leave d

/-- What a diary says to uses of its method, one after the other. -/
def replies : List Use → Diary → List Reply
  | [], _ => []
  | u :: rest, d => d.reply u :: replies rest (d.leave u)

variable {d : Diary} {uses : List Use} {u : Use} {now : Int}

theorem leaveAll_concat : d.leaveAll (uses ++ [u]) = (d.leaveAll uses).leave u := by
  rw [leaveAll, List.foldl_append]
  rfl

theorem replies_concat : replies (uses ++ [u]) d = replies uses d ++ [(d.leaveAll uses).reply u] := by
  induction uses generalizing d with
  | nil => rfl
  | cons v rest ih =>
    rw [List.cons_append, replies, ih]
    rfl

/-- A use leaves the settings of a diary, and notes its call or none. -/
theorem leave_eq_or (d : Diary) (u : Use) : d.leave u = d ∨ d.leave u = d.note u.time := by
  rw [leave]
  cases u.demand with
  | note => exact .inr rfl
  | look => exact .inl rfl
  | acquire =>
    dsimp only
    split
    · exact .inl rfl
    · exact .inr rfl

theorem settings_leaveAll (d : Diary) (uses : List Use) :
    (d.leaveAll uses).ceiling = d.ceiling ∧ (d.leaveAll uses).period = d.period := by
  induction uses using List.reverseRecOn with
  | nil => exact ⟨rfl, rfl⟩
  | append_singleton uses u ih =>
    rw [leaveAll_concat]
    rcases (d.leaveAll uses).leave_eq_or u with h | h
    · rwa [h]
    · rwa [h]

/-- In an unlimited diary there is always room. -/
theorem isRefusal_reply (h : d.ceiling = .unlimited) : (d.reply u).isRefusal = false := by
  have hroom : d.isFull u.time = false := by rw [isFull, h]
  rw [reply]
  cases u.demand with
  | note => rfl
  | look => exact hroom
  | acquire => rw [hroom]; rfl

theorem isRefusal_of_mem_replies (h : d.ceiling = .unlimited) :
    ∀ reply ∈ replies uses d, reply.isRefusal = false := by
  induction uses generalizing d with
  | nil => exact fun reply hreply => nomatch hreply
  | cons u rest ih =>
    intro reply hreply
    rcases List.mem_cons.mp hreply with rfl | hreply
    · exact isRefusal_reply h
    · refine ih ?_ reply hreply
      rcases d.leave_eq_or u with heq | heq
      · rwa [heq]
      · rwa [heq]

end Diary

/-! ## Limits and diaries -/

namespace RateLimits

/-- The limits and the diary of a method agree on it, from a time on. -/
structure Follows (r : RateLimits) (method : String) (d : Diary) (since : Int) : Prop where
  /-- they have one ceiling for the method -/
  ceiling : r.ceiling method = d.ceiling
  /-- a period has a length -/
  positive : 0 < d.period
  /-- calls are noted in the order of their times -/
  sorted : d.calls.Pairwise (· ≤ ·)
  /-- no call is yet to come -/
  past : ∀ t ∈ d.calls, t ≤ since
  /-- the window of a limited method has the settings of the diary -/
  settings : ∀ limit, d.ceiling = .limited limit →
    (r.window method limit).limit = limit ∧ (r.window method limit).period = d.period
  /-- and remembers what the diary has -/
  remembers : ∀ limit, d.ceiling = .limited limit →
    (r.window method limit).Remembers d.calls since

variable {r : RateLimits} {method : String} {limit : Nat} {uses : List Use} {u : Use} {d : Diary}
  {since : Int}

namespace Follows

/-- Before any use a diary is empty, and there is no window. -/
theorem start (hperiod : 0 < r.period) (hunused : r.windows = []) (method : String) (since : Int) :
    Follows r method (.new (r.ceiling method) r.period) since where
  ceiling := rfl
  positive := hperiod
  sorted := .nil
  past t ht := nomatch ht
  settings limit _ := by
    rw [window, hunused]
    exact ⟨rfl, rfl⟩
  remembers limit _ := by
    intro now _
    rw [window, hunused]
    rfl

theorem mono (h : Follows r method d since) {later : Int} (hle : since ≤ later) :
    Follows r method d later where
  __ := h
  past t ht := Int.le_trans (h.past t ht) hle
  remembers limit hlimit := (h.remembers limit hlimit).mono hle

/-- A use of another method changes nothing. -/
theorem elsewhere (h : Follows r method d since) (hu : u.method ≠ method) :
    Follows (u.leave r) method d since where
  __ := h
  ceiling := ceiling_leave.trans h.ceiling
  settings limit hlimit := by
    rw [window_leave_of_ne hu]
    exact h.settings limit hlimit
  remembers limit hlimit := by
    rw [window_leave_of_ne hu]
    exact h.remembers limit hlimit

/-- The window finds in the last period what the diary finds. -/
theorem calls_trim (h : Follows r method d since) (hlimit : d.ceiling = .limited limit) :
    ((r.window method limit).trim since).calls = d.within since := by
  rw [(h.remembers limit hlimit).calls_trim, (h.settings limit hlimit).2, Diary.within]

section Own

variable (h : Follows r u.method d u.time)
include h

theorem isFull_trim (hlimit : d.ceiling = .limited limit) :
    ((r.window u.method limit).trim u.time).isFull = d.isFull u.time := by
  have hsame : ((r.window u.method limit).trim u.time).limit = limit := (h.settings limit hlimit).1
  rw [CallWindow.isFull, h.calls_trim hlimit, hsame, Diary.isFull, hlimit]

/-- A full window waits as long as the diary says. -/
theorem wait_trim (hlimit : d.ceiling = .limited limit) (hfull : d.isFull u.time = true) :
    max 1 (((r.window u.method limit).trim u.time).wait u.time).1 = d.pause u.time := by
  have hperiod : ((r.window u.method limit).trim u.time).period = d.period :=
    (h.settings limit hlimit).2
  simp only [CallWindow.wait, CallWindow.trim_trim, h.isFull_trim hlimit, hfull, if_true]
  rw [CallWindow.untilRoom, h.calls_trim hlimit, hperiod, Diary.pause]
  cases hwithin : d.within u.time with
  | nil => rfl
  | cons oldest rest =>
    -- the first call of the last period is its oldest one, and it is not too old
    have hsorted : (oldest :: rest).Pairwise (· ≤ ·) := hwithin ▸ h.sorted.filter _
    have hmin : (oldest :: rest).min? = some oldest := by
      refine List.min?_eq_some_iff.mpr ⟨.head rest, fun t ht => ?_⟩
      rcases List.mem_cons.mp ht with rfl | ht
      · exact Int.le_refl _
      · exact (List.pairwise_cons.mp hsorted).1 t ht
    have hyoung : u.time - d.period ≤ oldest := by
      have hmem : oldest ∈ d.within u.time := hwithin ▸ .head rest
      simpa using (List.mem_filter.mp hmem).2
    rw [hmin, Option.elim_some]
    dsimp only
    omega

/-- Limits say to a use of the method what its diary says. -/
theorem reply : u.reply r = d.reply u := by
  have hceiling := h.ceiling
  rw [Use.reply, Diary.reply]
  cases hlimit : d.ceiling with
  | unlimited =>
    rw [hlimit] at hceiling
    have hroom : d.isFull u.time = false := by rw [Diary.isFull, hlimit]
    cases u.demand with
    | note => rfl
    | look => simp only [atLimit, hceiling, hroom]
    | acquire => simp only [tryAcquire, hceiling, hroom, Bool.false_eq_true, if_false]
  | limited limit =>
    rw [hlimit] at hceiling
    cases u.demand with
    | note => rfl
    | look => simp only [atLimit, hceiling, CallWindow.atLimit, h.isFull_trim hlimit]
    | acquire =>
      simp only [tryAcquire_eq hceiling, h.isFull_trim hlimit]
      split
      case isTrue hfull => rw [h.wait_trim hlimit hfull]
      case isFalse => rfl

/-- A use of a limited method notes its call where the diary does. -/
theorem leave_diary_eq (hlimit : d.ceiling = .limited limit) :
    d.leave u = if u.isNoted r then d.note u.time else d := by
  have hceiling : r.ceiling u.method = .limited limit := h.ceiling.trans hlimit
  have hgranted := isGranted_iff hceiling
  rw [h.isFull_trim hlimit] at hgranted
  rw [Diary.leave, Use.isNoted]
  cases hdemand : u.demand with
  | note => rfl
  | look =>
    have hnot : u.isGranted r = false := by
      rw [← Bool.not_eq_true, hgranted, hdemand]
      simp
    rw [hnot]
    rfl
  | acquire =>
    cases hfull : d.isFull u.time with
    | true =>
      have hnot : u.isGranted r = false := by
        rw [← Bool.not_eq_true, hgranted, hfull]
        simp
      rw [hnot]
      rfl
    | false =>
      rw [hgranted.mpr ⟨hdemand, hfull⟩]
      rfl

/-- The window of a limited method after a use of it. -/
theorem window_leave (hlimit : d.ceiling = .limited limit) :
    (u.leave r).window u.method limit =
      if u.isNoted r then (r.window u.method limit).record u.time
      else (r.window u.method limit).trim u.time := by
  have hperiod : 0 ≤ (r.window u.method limit).period := by
    rw [(h.settings limit hlimit).2]
    exact Int.le_of_lt h.positive
  rw [leave_eq (h.ceiling.trans hlimit) hperiod, window_withWindow]

/-- A use of the method is noted by both or by neither. -/
theorem step : Follows (u.leave r) u.method (d.leave u) u.time := by
  have hconcat : (d.note u.time).calls.Pairwise (· ≤ ·) := by
    refine List.pairwise_append.mpr ⟨h.sorted, List.pairwise_singleton _ _, fun t ht t' ht' => ?_⟩
    rw [List.mem_singleton.mp ht']
    exact h.past t ht
  have hsettings : (d.leave u).ceiling = d.ceiling ∧ (d.leave u).period = d.period :=
    d.settings_leaveAll [u]
  refine ⟨?_, ?_, ?_, ?_, ?_, ?_⟩
  · rw [ceiling_leave, h.ceiling, hsettings.1]
  · rw [hsettings.2]
    exact h.positive
  · rcases d.leave_eq_or u with heq | heq
    · rw [heq]
      exact h.sorted
    · rw [heq]
      exact hconcat
  · rcases d.leave_eq_or u with heq | heq
    · rw [heq]
      exact h.past
    · intro t ht
      rw [heq] at ht
      rcases List.mem_append.mp ht with ht | ht
      · exact h.past t ht
      · exact Int.le_of_eq (List.mem_singleton.mp ht)
  · intro limit hlimit
    rw [hsettings.1] at hlimit
    rw [h.window_leave hlimit, hsettings.2]
    split
    · exact h.settings limit hlimit
    · exact h.settings limit hlimit
  · intro limit hlimit
    rw [hsettings.1] at hlimit
    rw [h.window_leave hlimit, h.leave_diary_eq hlimit]
    split
    · refine (h.remembers limit hlimit).record ?_ hconcat
      rw [(h.settings limit hlimit).2]
      exact Int.le_of_lt h.positive
    · exact (h.remembers limit hlimit).trim h.sorted

end Own

end Follows

/-! ## Runs -/

theorem own_concat : own method (uses ++ [u])
    = own method uses ++ if u.method = method then [u] else [] := by
  rw [own, List.filter_append, List.filter_cons, List.filter_nil]
  simp only [decide_eq_true_eq]
  rfl

theorem repliesTo_concat : repliesTo method (uses ++ [u]) r = repliesTo method uses r
    ++ if u.method = method then [u.reply (leaveAll uses r)] else [] := by
  induction uses generalizing r with
  | nil =>
    rw [List.nil_append, repliesTo]
    rfl
  | cons v rest ih =>
    rw [List.cons_append, repliesTo, repliesTo, ih]
    split <;> rfl

/-- **The invariant.** After any uses the limits agree on a method with its diary, which has seen
the uses of this method alone. -/
theorem follows_leaveAll (hperiod : 0 < r.period) (hunused : r.windows = [])
    (horder : InOrder method uses) (hsince : ∀ u ∈ uses, u.method = method → u.time ≤ since) :
    Follows (leaveAll uses r) method
      ((Diary.new (r.ceiling method) r.period).leaveAll (own method uses)) since := by
  induction uses using List.reverseRecOn generalizing since with
  | nil => exact .start hperiod hunused method since
  | append_singleton uses u ih =>
    rw [leaveAll_concat, own_concat]
    by_cases hu : u.method = method
    · have hbefore := ih horder.of_concat (horder.le_time hu)
      subst hu
      rw [if_pos rfl, Diary.leaveAll_concat]
      exact hbefore.step.mono (hsince u List.mem_concat_self rfl)
    · rw [if_neg hu, List.append_nil]
      exact (ih horder.of_concat fun v hv => hsince v (List.mem_append_left _ hv)).elsewhere hu

theorem repliesTo_eq (hperiod : 0 < r.period) (hunused : r.windows = [])
    (horder : InOrder method uses) :
    repliesTo method uses r
      = (Diary.new (r.ceiling method) r.period).replies (own method uses) := by
  induction uses using List.reverseRecOn with
  | nil => rfl
  | append_singleton uses u ih =>
    rw [repliesTo_concat, own_concat, ih horder.of_concat]
    by_cases hu : u.method = method
    · have hbefore := follows_leaveAll hperiod hunused horder.of_concat (horder.le_time hu)
      subst hu
      rw [if_pos rfl, if_pos rfl, Diary.replies_concat, hbefore.reply]
    · rw [if_neg hu, if_neg hu, List.append_nil, List.append_nil]

/-- **Nothing is forgotten.** Take limits that no one has used. Whatever is then asked of them, in
whatever mix of methods, if the times of a method do not go back, all replies to this method are
those of its diary, which keeps every call, counts those of the last period and knows of no other
method. So they do not depend on the uses of other methods, an unlimited method always has room, and
a window has all calls of the last period, however many they are. -/
theorem replies_eq_diary (hperiod : 0 < r.period) (hunused : r.windows = [])
    (horder : InOrder method uses) :
    let diary : Diary := .new (r.ceiling method) r.period
    repliesTo method uses r = diary.replies (own method uses) ∧
      (∀ others, own method others = own method uses →
        repliesTo method others r = repliesTo method uses r) ∧
      (r.ceiling method = .unlimited → ∀ reply ∈ repliesTo method uses r,
        reply.isRefusal = false) ∧
      ∀ limit, r.ceiling method = .limited limit →
        ∀ now, (∀ u ∈ uses, u.method = method → u.time ≤ now) →
          (((leaveAll uses r).window method limit).trim now).calls
            = (diary.leaveAll (own method uses)).within now := by
  intro diary
  have hreplies := repliesTo_eq hperiod hunused horder
  refine ⟨hreplies, fun others hown => ?_, fun hceiling => ?_, fun limit hceiling now hnow => ?_⟩
  · have horder' : InOrder method others := by
      rw [InOrder, ← own, hown]
      exact horder
    rw [repliesTo_eq hperiod hunused horder', hown, hreplies]
  · rw [hreplies]
    exact Diary.isRefusal_of_mem_replies hceiling
  · have hafter := follows_leaveAll hperiod hunused horder hnow
    obtain ⟨hsame, -⟩ := diary.settings_leaveAll (own method uses)
    exact hafter.calls_trim (hsame.trans hceiling)

/-- A limit of its own for one method, none for another, and one call in ten milliseconds for all
others. -/
def mixedLimits : RateLimits :=
  ⟨10, [("getTrades", .limited 2), ("getCandles", .unlimited)], .limited 1, []⟩

/-- Uses of several methods. The times of "getTrades" do not go back, those of others do, and one
call is noted though the last period is full. -/
def mixedUses : List Use :=
  [⟨.acquire, "getTrades", 0⟩, ⟨.acquire, "getLedgers", 9⟩, ⟨.note, "getTrades", 4⟩,
    ⟨.look, "getTrades", 4⟩, ⟨.note, "getCandles", 3⟩, ⟨.acquire, "getTrades", 10⟩,
    ⟨.note, "getTrades", 10⟩, ⟨.look, "getLedgers", 5⟩, ⟨.acquire, "getTrades", 11⟩,
    ⟨.acquire, "getTrades", 15⟩]

theorem replies_eq_diary_mixed :
    ((new 10 [("getTrades", .limited 2), ("getCandles", .unlimited)]).bind fun r =>
        r.withDefault (.limited 1)) = .ok mixedLimits ∧
      0 < mixedLimits.period ∧ mixedLimits.windows = [] ∧ InOrder "getTrades" mixedUses ∧
      repliesTo "getTrades" mixedUses mixedLimits =
        [.asked none, .noted, .full true, .asked (some 1), .noted, .asked (some 4),
          .asked none] := by
  have hperiod : 0 < mixedLimits.period := by decide
  have hunused : mixedLimits.windows = [] := rfl
  have horder : InOrder "getTrades" mixedUses := by
    unfold InOrder
    decide
  obtain ⟨hreplies, -⟩ := replies_eq_diary hperiod hunused horder
  refine ⟨by decide, hperiod, hunused, horder, ?_⟩
  rw [hreplies]
  decide

end RateLimits

end AccountHistory
