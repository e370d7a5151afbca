import Mathlib.Data.List.DropRight
import Mathlib.Data.List.Induction
import AccountHistory.Proofs.Outcomes
import AccountHistory.RateLimit.Limits

/-!
# What windows remember of calls

A window forgets calls only when it is used, and only from the front. Still it answers as if it had
kept them all, as long as the times of its method do not go back:

* `Use` is what is done to limits at a time; `noted` are the times of all calls that a method has
  made since the beginning, `granted` those of them that it had asked for;
* `Remembers` says that a window knows all of a history that is not older than a period, at every
  time still to come. Looking, noting and acquiring keep this up, so after any uses the window of a
  method remembers all that was noted of it (`remembers_noted`);
* `granted_in_period_le`: so no more calls than the limit are granted within a period, wherever the
  period begins.
-/

namespace AccountHistory

/-! ## Windows -/

namespace CallWindow

variable {w : CallWindow} {period now later : Int} {calls history : List Int}

/-- Of times in order, those in front that are too old are all that are too old. -/
theorem recent_of_sorted (h : calls.Pairwise (· ≤ ·)) :
    recent period now calls = calls.filter fun t => now - period ≤ t := by
  induction calls with
  | nil => rfl
  | cons t rest ih =>
    obtain ⟨hfirst, hrest⟩ := List.pairwise_cons.mp h
    rw [recent, List.dropWhile_cons]
    split
    case isTrue hold =>
      rw [decide_eq_true_eq] at hold
      rw [List.filter_cons_of_neg (by rw [decide_eq_true_eq]; omega)]
      exact ih hrest
    case isFalse hyoung =>
      -- the first one is young enough, and no other one is older
      rw [decide_eq_true_eq] at hyoung
      replace hyoung : now - period ≤ t := by omega
      refine (List.filter_eq_self.mpr fun t' ht' => ?_).symm
      rw [decide_eq_true_eq]
      rcases List.mem_cons.mp ht' with rfl | ht'
      · exact hyoung
      · exact Int.le_trans hyoung (hfirst t' ht')

/-- What is too old now will be so later. -/
theorem recent_filter (h : history.Pairwise (· ≤ ·)) (hle : now ≤ later) :
    recent period later (history.filter fun t => now - period ≤ t)
      = history.filter fun t => later - period ≤ t := by
  rw [recent_of_sorted (h.filter _), List.filter_filter]
  refine List.filter_congr fun t _ => ?_
  rw [Bool.and_eq_left_iff_imp, decide_eq_true_eq, decide_eq_true_eq]
  omega

/-- A call of this moment is not too old. -/
theorem recent_concat (h : 0 ≤ period) :
    recent period now (calls ++ [now]) = recent period now calls ++ [now] := by
  have hyoung : ¬decide (now < now - period) = true := by
    rw [decide_eq_true_eq]
    omega
  rw [recent, recent, List.dropWhile_append]
  split
  case isTrue hnone =>
    rw [List.isEmpty_iff.mp hnone, List.dropWhile_cons, if_neg hyoung, List.nil_append]
  case isFalse => rfl

@[simp] theorem trim_trim (w : CallWindow) (now : Int) : (w.trim now).trim now = w.trim now := by
  rw [trim, trim, recent, recent, List.dropWhile_idempotent]

theorem record_trim (h : 0 ≤ w.period) : (w.trim now).record now = w.record now := by
  simp only [record, trim, recent_concat h]
  rw [recent, recent, List.dropWhile_idempotent]

/-- The window knows, from a time on, all of a history that is not older than the period. -/
def Remembers (w : CallWindow) (history : List Int) (since : Int) : Prop :=
  ∀ now, since ≤ now → recent w.period now w.calls = history.filter fun t => now - w.period ≤ t

theorem Remembers.mono (h : w.Remembers history now) (hle : now ≤ later) :
    w.Remembers history later :=
  fun t ht => h t (Int.le_trans hle ht)

/-- What a window finds in the last period is what the history has of it. -/
theorem Remembers.calls_trim (h : w.Remembers history now) :
    (w.trim now).calls = history.filter fun t => now - w.period ≤ t :=
  h now (Int.le_refl now)

theorem Remembers.trim (h : w.Remembers history now) (hsorted : history.Pairwise (· ≤ ·)) :
    (w.trim now).Remembers history now := by
  intro later hlater
  rw [h.calls_trim]
  exact recent_filter hsorted hlater

theorem Remembers.record (h : w.Remembers history now) (hperiod : 0 ≤ w.period)
    (hsorted : (history ++ [now]).Pairwise (· ≤ ·)) :
    (w.record now).Remembers (history ++ [now]) now := by
  have hcalls : (w.record now).calls = (history ++ [now]).filter fun t => now - w.period ≤ t := by
    have hyoung : decide (now - w.period ≤ now) = true := by
      rw [decide_eq_true_eq]
      omega
    have hrecord : (w.record now).calls = (w.trim now).calls ++ [now] := recent_concat hperiod
    rw [hrecord, h.calls_trim, List.filter_append, List.filter_cons, if_pos hyoung,
      List.filter_nil]
  intro later hlater
  rw [hcalls]
  exact recent_filter hsorted hlater

end CallWindow

/-! ## Uses -/

/-- What is asked of limits. -/
inductive Demand where
  /-- to note a call -/
  | note
  /-- to say whether there is room -/
  | look
  /-- to note a call if there is room -/
  | acquire
  deriving DecidableEq, Repr

/-- A use of limits. -/
structure Use where
  /-- what is asked -/
  demand : Demand
  /-- for which method -/
  method : String
  /-- when -/
  time : Int
  deriving DecidableEq, Repr

namespace Use

/-- The limits after a use. -/
def leave (u : Use) (r : RateLimits) : RateLimits :=
  match u.demand with
  | .note => r.record u.method u.time
  | .look => (r.atLimit u.method u.time).2
  | .acquire => (r.tryAcquire u.method u.time).2

/-- A call is asked for, and there is room for it. -/
def isGranted (u : Use) (r : RateLimits) : Bool :=
  u.demand == .acquire && (r.tryAcquire u.method u.time).1.isNone

/-- A call is noted. -/
def isNoted (u : Use) (r : RateLimits) : Bool :=
  u.demand == .note || u.isGranted r

end Use

namespace RateLimits

/-- The limits after uses, one after the other. -/
def leaveAll (uses : List Use) (r : RateLimits) : RateLimits :=
  uses.foldl (fun r u => u.leave r) r

/-- The uses of a method that pass a test on the limits they find. -/
def passing (test : Use → RateLimits → Bool) (method : String) :
    List Use → RateLimits → List Use
  | [], _ => []
  | u :: rest, r =>
    if u.method = method ∧ test u r = true then u :: passing test method rest (u.leave r)
    else passing test method rest (u.leave r)

/-- The times of the calls of a method that are noted. -/
def noted (method : String) (uses : List Use) (r : RateLimits) : List Int :=
  (passing Use.isNoted method uses r).map Use.time

/-- The times of the calls of a method that are asked for and granted. -/
def granted (method : String) (uses : List Use) (r : RateLimits) : List Int :=
  (passing Use.isGranted method uses r).map Use.time

/-- The times of a method do not go back. -/
def InOrder (method : String) (uses : List Use) : Prop :=
  ((uses.filter fun u => u.method = method).map Use.time).Pairwise (· ≤ ·)

variable {r : RateLimits} {method : String} {limit : Nat} {uses : List Use} {u : Use}

theorem leaveAll_concat : leaveAll (uses ++ [u]) r = u.leave (leaveAll uses r) := by
  rw [leaveAll, List.foldl_append]
  rfl

theorem passing_concat {test : Use → RateLimits → Bool} :
    passing test method (uses ++ [u]) r = passing test method uses r
      ++ if u.method = method ∧ test u (leaveAll uses r) = true then [u] else [] := by
  induction uses generalizing r with
  | nil =>
    rw [List.nil_append, passing]
    rfl
  | cons v rest ih =>
    rw [List.cons_append, passing, passing, ih]
    split <;> rfl

theorem noted_concat : noted method (uses ++ [u]) r = noted method uses r
    ++ if u.method = method ∧ u.isNoted (leaveAll uses r) = true then [u.time] else [] := by
  rw [noted, passing_concat, List.map_append, apply_ite (List.map Use.time)]
  rfl

theorem granted_concat : granted method (uses ++ [u]) r = granted method uses r
    ++ if u.method = method ∧ u.isGranted (leaveAll uses r) = true then [u.time] else [] := by
  rw [granted, passing_concat, List.map_append, apply_ite (List.map Use.time)]
  rfl

theorem passing_sublist (test : Use → RateLimits → Bool) :
    (passing test method uses r).Sublist (uses.filter fun u => u.method = method) := by
  induction uses generalizing r with
  | nil => exact .slnil
  | cons u rest ih =>
    rw [passing, List.filter_cons]
    by_cases hmethod : u.method = method
    · simp only [hmethod, decide_true, if_true, true_and]
      split
      · exact ih.cons_cons u
      · exact ih.cons u
    · simpa only [hmethod, false_and, if_false, decide_false, Bool.false_eq_true] using ih

/-- Every call that is granted is noted. -/
theorem granted_sublist_noted : (granted method uses r).Sublist (noted method uses r) := by
  refine List.Sublist.map _ ?_
  induction uses generalizing r with
  | nil => exact .slnil
  | cons u rest ih =>
    rw [passing, passing]
    split
    case isTrue h =>
      have hnoted : u.isNoted r = true := by rw [Use.isNoted, h.2, Bool.or_true]
      rw [if_pos ⟨h.1, hnoted⟩]
      exact ih.cons_cons u
    case isFalse =>
      split
      · exact ih.cons u
      · exact ih

theorem InOrder.of_concat (h : InOrder method (uses ++ [u])) : InOrder method uses := by
  rw [InOrder, List.filter_append, List.map_append] at h
  exact (List.pairwise_append.mp h).1

theorem InOrder.noted (h : InOrder method uses) : (noted method uses r).Pairwise (· ≤ ·) :=
  h.sublist ((passing_sublist Use.isNoted).map Use.time)

/-- The last use of a method is not before any other. -/
theorem InOrder.le_time (h : InOrder method (uses ++ [u])) (hu : u.method = method) :
    ∀ v ∈ uses, v.method = method → v.time ≤ u.time := by
  intro v hv hmethod
  rw [InOrder, List.filter_append, List.map_append] at h
  refine (List.pairwise_append.mp h).2.2 v.time ?_ u.time ?_
  · exact List.mem_map_of_mem (List.mem_filter.mpr ⟨hv, by simpa using hmethod⟩)
  · simp [hu]

/-! ## Windows of methods -/

theorem find?_put {α : Type} (name : String) (value : α) (entries : List (String × α)) :
    (put name value entries).find? (fun e => e.1 == name) = some (name, value) := by
  induction entries with
  | nil => simp [put]
  | cons e rest ih =>
    rw [put]
    split
    · simp
    case isFalse hne => rw [List.find?_cons_of_neg (by simpa using hne), ih]

theorem find?_put_of_ne {α : Type} {name other : String} (h : name ≠ other) (value : α)
    (entries : List (String × α)) :
    (put name value entries).find? (fun e => e.1 == other)
      = entries.find? fun e => e.1 == other := by
  induction entries with
  | nil => simp [put, h]
  | cons e rest ih =>
    rw [put]
    split
    case isTrue heq =>
      rw [List.find?_cons_of_neg (by simpa using h), List.find?_cons_of_neg (by simpa [heq] using h)]
    case isFalse => rw [List.find?_cons, List.find?_cons, ih]

@[simp] theorem ceiling_withWindow (name : String) (w : CallWindow) :
    (r.withWindow name w).ceiling method = r.ceiling method := rfl

@[simp] theorem window_withWindow (w : CallWindow) :
    (r.withWindow method w).window method limit = w := by
  rw [window, withWindow, find?_put]
  rfl

theorem window_withWindow_of_ne {name : String} (h : name ≠ method) (w : CallWindow) :
    (r.withWindow name w).window method limit = r.window method limit := by
  rw [window, withWindow, find?_put_of_ne h]
  rfl

/-- A call is granted where the window has room after it has forgotten what is too old. -/
theorem tryAcquire_eq {now : Int} (h : r.ceiling method = .limited limit) :
    r.tryAcquire method now =
      if ((r.window method limit).trim now).isFull then
        (some (max 1 (((r.window method limit).trim now).wait now).1),
          r.withWindow method ((r.window method limit).trim now))
      else (none, r.withWindow method (((r.window method limit).trim now).record now)) := by
  simp only [tryAcquire, h, CallWindow.atLimit, CallWindow.wait, CallWindow.trim_trim]

/-- A use of an unlimited method changes nothing; one of a limited method replaces its window by one
of the same limit. -/
theorem leave_cases (u : Use) (r : RateLimits) :
    r.ceiling u.method = .unlimited ∧ u.leave r = r ∨
      ∃ limit w, r.ceiling u.method = .limited limit ∧ u.leave r = r.withWindow u.method w ∧
        w.limit = (r.window u.method limit).limit := by
  rw [Use.leave]
  cases hceiling : r.ceiling u.method with
  | unlimited =>
    refine .inl ⟨rfl, ?_⟩
    cases u.demand with
    | note => simp only [record, hceiling]
    | look => simp only [atLimit, hceiling]
    | acquire => simp only [tryAcquire, hceiling]
  | limited limit =>
    right
    cases u.demand with
    | note =>
      refine ⟨limit, (r.window u.method limit).record u.time, rfl, ?_, rfl⟩
      simp only [record, hceiling]
    | look =>
      refine ⟨limit, (r.window u.method limit).trim u.time, rfl, ?_, rfl⟩
      simp only [atLimit, hceiling, CallWindow.atLimit]
    | acquire =>
      simp only [tryAcquire_eq hceiling]
      split
      · exact ⟨limit, _, rfl, rfl, rfl⟩
      · exact ⟨limit, _, rfl, rfl, rfl⟩

/-- A use changes nothing but the window of its method. -/
theorem leave_eq_or (u : Use) (r : RateLimits) :
    u.leave r = r ∨ ∃ w, u.leave r = r.withWindow u.method w := by
  obtain ⟨-, heq⟩ | ⟨_, w, -, heq, -⟩ := leave_cases u r
  · exact .inl heq
  · exact .inr ⟨w, heq⟩

theorem window_leave_of_ne (h : u.method ≠ method) :
    (u.leave r).window method limit = r.window method limit := by
  rcases leave_eq_or u r with heq | ⟨w, heq⟩
  · rw [heq]
  · rw [heq, window_withWindow_of_ne h]

theorem ceiling_leave : (u.leave r).ceiling method = r.ceiling method := by
  rcases leave_eq_or u r with heq | ⟨w, heq⟩
  · rw [heq]
  · rw [heq, ceiling_withWindow]

theorem isGranted_iff (h : r.ceiling u.method = .limited limit) :
    u.isGranted r = true ↔
      u.demand = .acquire ∧ ((r.window u.method limit).trim u.time).isFull = false := by
  rw [Use.isGranted, Bool.and_eq_true, beq_iff_eq, tryAcquire_eq h]
  cases ((r.window u.method limit).trim u.time).isFull <;> simp

/-- **A use of a limited method.** Its window forgets what is too old, and notes the call if it is
to be noted. -/
theorem leave_eq (h : r.ceiling u.method = .limited limit)
    (hperiod : 0 ≤ (r.window u.method limit).period) :
    u.leave r = r.withWindow u.method
      (if u.isNoted r then (r.window u.method limit).record u.time
        else (r.window u.method limit).trim u.time) := by
  rw [Use.leave]
  cases hdemand : u.demand with
  | note =>
    have hnoted : u.isNoted r = true := by rw [Use.isNoted, hdemand]; rfl
    simp only [record, h, hnoted, if_true]
  | look =>
    have hnoted : u.isNoted r = false := by rw [Use.isNoted, Use.isGranted, hdemand]; rfl
    simp only [atLimit, h, hnoted, Bool.false_eq_true, if_false, CallWindow.atLimit]
  | acquire =>
    have hnoted : u.isNoted r = !((r.window u.method limit).trim u.time).isFull := by
      rw [Bool.eq_iff_iff, Use.isNoted, Bool.or_eq_true, isGranted_iff h, hdemand]
      simp
    simp only [tryAcquire_eq h, hnoted]
    cases ((r.window u.method limit).trim u.time).isFull with
    | true => rfl
    | false =>
      rw [CallWindow.record_trim hperiod]
      rfl

/-! ## Histories -/

section Histories

variable {period : Int} {ceilings : List (String × Ceiling)}

theorem new_ok (h : new period ceilings = .ok r) :
    0 < period ∧ r.period = period ∧ r.windows = [] := by
  obtain ⟨hperiod, h⟩ := of_guard h
  split at h
  · cases h
  · obtain rfl := Except.ok.inj h
    exact ⟨by omega, rfl, rfl⟩

theorem ceiling_leaveAll : (leaveAll uses r).ceiling method = r.ceiling method := by
  induction uses using List.reverseRecOn with
  | nil => rfl
  | append_singleton uses u ih => rw [leaveAll_concat, ceiling_leave, ih]

/-- The window of a method keeps the limit and the period of its making. -/
theorem window_leaveAll (hnew : new period ceilings = .ok r)
    (hceiling : r.ceiling method = .limited limit) (uses : List Use) :
    ∃ calls, (leaveAll uses r).window method limit = ⟨limit, period, calls⟩ := by
  obtain ⟨hpositive, hperiod, hnone⟩ := new_ok hnew
  induction uses using List.reverseRecOn with
  | nil =>
    refine ⟨[], ?_⟩
    rw [leaveAll, List.foldl_nil, window, hnone, ← hperiod]
    rfl
  | append_singleton uses u ih =>
    obtain ⟨calls, hwindow⟩ := ih
    rw [leaveAll_concat]
    by_cases hu : u.method = method
    · subst hu
      rw [leave_eq (ceiling_leaveAll.trans hceiling) (by rw [hwindow]; dsimp only; omega),
        window_withWindow, hwindow]
      split
      · exact ⟨_, rfl⟩
      · exact ⟨_, rfl⟩
    · exact ⟨calls, by rw [window_leave_of_ne hu, hwindow]⟩

/-- **The invariant.** After any uses the window of a method remembers all that was noted of it. -/
theorem remembers_noted (hnew : new period ceilings = .ok r)
    (hceiling : r.ceiling method = .limited limit) (horder : InOrder method uses) {since : Int}
    (hsince : ∀ u ∈ uses, u.method = method → u.time ≤ since) :
    ((leaveAll uses r).window method limit).Remembers (noted method uses r) since := by
  obtain ⟨hpositive, -, hnone⟩ := new_ok hnew
  induction uses using List.reverseRecOn generalizing since with
  | nil =>
    intro now _
    rw [leaveAll, List.foldl_nil, window, hnone]
    rfl
  | append_singleton uses u ih =>
    obtain ⟨calls, hwindow⟩ := window_leaveAll hnew hceiling uses
    rw [leaveAll_concat, noted_concat]
    by_cases hu : u.method = method
    · have hbefore := ih horder.of_concat (horder.le_time hu)
      have hnow : u.time ≤ since := hsince u (by simp) hu
      have hsorted := horder.noted (r := r)
      have hle : 0 ≤ ((leaveAll uses r).window method limit).period := by
        rw [hwindow]
        exact Int.le_of_lt hpositive
      rw [noted_concat] at hsorted
      subst hu
      rw [leave_eq (ceiling_leaveAll.trans hceiling) hle, window_withWindow]
      simp only [true_and] at hsorted ⊢
      split
      case isTrue hnoted =>
        rw [if_pos hnoted] at hsorted
        exact (hbefore.record hle hsorted).mono hnow
      case isFalse hnoted =>
        rw [if_neg hnoted, List.append_nil] at hsorted
        rw [List.append_nil]
        exact (hbefore.trim hsorted).mono hnow
    · rw [window_leave_of_ne hu, if_neg fun h => hu h.1, List.append_nil]
      exact ih horder.of_concat fun v hv => hsince v (List.mem_append_left _ hv)

/-- Where a call is granted, the last period has room for it in all that was noted. -/
theorem length_noted_lt (hnew : new period ceilings = .ok r)
    (hceiling : r.ceiling method = .limited limit) (horder : InOrder method (uses ++ [u]))
    (hu : u.method = method) (hgranted : u.isGranted (leaveAll uses r) = true) :
    ((noted method uses r).filter fun t => u.time - period ≤ t).length < limit := by
  subst hu
  have hbefore := remembers_noted hnew hceiling horder.of_concat (horder.le_time rfl)
  obtain ⟨calls, hwindow⟩ := window_leaveAll hnew hceiling uses
  obtain ⟨-, hroom⟩ := (isGranted_iff (ceiling_leaveAll.trans hceiling)).mp hgranted
  have hcalls := hbefore.calls_trim
  rw [hwindow] at hroom hcalls
  rw [CallWindow.isFull, hcalls, decide_eq_false_iff_not, Nat.not_le] at hroom
  exact hroom

/-- **Pacing.** However the uses of methods are mixed, if the times of a limited method do not go
back, no period holds more calls granted to it than its limit, wherever the period begins. -/
theorem granted_in_period_le (hnew : new period ceilings = .ok r)
    (hceiling : r.ceiling method = .limited limit) (horder : InOrder method uses) (x : Int) :
    ((granted method uses r).filter fun t => x ≤ t ∧ t ≤ x + period).length ≤ limit := by
  induction uses using List.reverseRecOn with
  | nil => exact Nat.zero_le limit
  | append_singleton uses u ih =>
    have hbefore := ih horder.of_concat
    rw [granted_concat]
    split
    case isFalse => rwa [List.append_nil]
    case isTrue h =>
      rw [List.filter_append, List.length_append]
      by_cases hinside : x ≤ u.time ∧ u.time ≤ x + period
      · -- all that was granted before in this period is noted in the last period
        have hsub : ((granted method uses r).filter fun t => x ≤ t ∧ t ≤ x + period).Sublist
            ((noted method uses r).filter fun t => u.time - period ≤ t) := by
          refine (List.monotone_filter_right _ fun t ht => ?_).trans
            (granted_sublist_noted.filter _)
          rw [decide_eq_true_eq] at ht ⊢
          omega
        have hroom := length_noted_lt hnew hceiling horder h.1 h.2
        have hone : ([u.time].filter fun t => x ≤ t ∧ t ≤ x + period).length ≤ 1 :=
          List.length_filter_le _ _
        have := hsub.length_le
        omega
      · rwa [List.filter_cons_of_neg (by simpa using hinside), List.filter_nil, List.length_nil,
          Nat.add_zero]

end Histories

/-- Two calls in ten milliseconds for each method. -/
def twoInTen : RateLimits := ⟨10, [("getTrades", .limited 2)], .unlimited, []⟩

/-- Calls at the edge of a period: the fourth is refused, as the first is just not too old. -/
def burst : List Use :=
  [⟨.acquire, "getTrades", 0⟩, ⟨.look, "getLedgers", 9⟩, ⟨.acquire, "getTrades", 4⟩,
    ⟨.acquire, "getTrades", 10⟩, ⟨.look, "getTrades", 10⟩, ⟨.acquire, "getTrades", 11⟩]

theorem granted_in_period_le_burst :
    new 10 [("getTrades", .limited 2)] = .ok twoInTen ∧
      twoInTen.ceiling "getTrades" = .limited 2 ∧ InOrder "getTrades" burst ∧
      granted "getTrades" burst twoInTen = [0, 4, 11] ∧
      ((granted "getTrades" burst twoInTen).filter fun t => 1 ≤ t ∧ t ≤ 1 + 10).length ≤ 2 := by
  have hnew : new 10 [("getTrades", .limited 2)] = .ok twoInTen := by decide
  have hceiling : twoInTen.ceiling "getTrades" = .limited 2 := by decide
  have horder : InOrder "getTrades" burst := by
    unfold InOrder
    decide
  exact ⟨hnew, hceiling, horder, by decide, granted_in_period_le hnew hceiling horder 1⟩

end RateLimits

end AccountHistory
