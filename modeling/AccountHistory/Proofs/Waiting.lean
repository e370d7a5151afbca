import Mathlib.Algebra.Ring.Int.Defs
import AccountHistory.Proofs.Pacing

/-!
# Waiting for room

A single caller who finds no room waits as long as it is told and tries again, until its call is
noted. The wait only looks at the oldest call of the window: where more calls were noted than the
limit allows, room is found after several waits.

* `Acquires` is this loop, with the waits that it takes; `Acquires.unique` says that it goes one way
  only;
* `exists_acquires` says that it ends, and at which time, by induction on the calls of the last
  period: each wait is as long as it takes the oldest of them to leave;
* `acquire_waits` says that the call is noted at the first moment at which the log has room for it.
-/

namespace AccountHistory

namespace CallWindow

variable {w : CallWindow} {now time : Int} {history : List Int}

/-- The calls of a history in the period that ends at a time. -/
def lastPeriod (period time : Int) (history : List Int) : List Int :=
  history.filter fun t => time - period ≤ t ∧ t ≤ time

/-- Of calls that are over, those of the last period are those that are not too old. -/
theorem lastPeriod_eq (hpast : ∀ t ∈ history, t ≤ now) (hle : now ≤ time) (period : Int) :
    lastPeriod period time history = history.filter fun t => time - period ≤ t := by
  refine List.filter_congr fun t ht => ?_
  have hover := hpast t ht
  rw [decide_eq_decide]
  omega

/-- A window remembers its own calls, if they are in order. -/
theorem remembers_calls (h : w.calls.Pairwise (· ≤ ·)) (since : Int) :
    w.Remembers w.calls since :=
  fun _ _ => recent_of_sorted h

/-- The last period keeps all its calls up to the moment at which the oldest is just not too old. -/
theorem filter_eq_of_le {period oldest : Int}
    (holdest : ∀ t ∈ history, now - period ≤ t → oldest ≤ t) (hle : now ≤ time)
    (hstays : time ≤ oldest + period) : (history.filter fun t => time - period ≤ t)
      = history.filter fun t => now - period ≤ t := by
  refine List.filter_congr fun t ht => decide_eq_decide.mpr ⟨fun _ => by omega, fun hyoung => ?_⟩
  have hafter := holdest t ht hyoung
  omega

/-- At the next moment it has fewer. -/
theorem length_filter_lt {period oldest : Int} (hoccurs : oldest ∈ history)
    (hyoung : now - period ≤ oldest) :
    (history.filter fun t => oldest + period + 1 - period ≤ t).length
      < (history.filter fun t => now - period ≤ t).length := by
  have hsub : (history.filter fun t => oldest + period + 1 - period ≤ t).Sublist
      (history.filter fun t => now - period ≤ t) := by
    refine List.monotone_filter_right _ fun t ht => ?_
    rw [decide_eq_true_eq] at ht ⊢
    omega
  refine Nat.lt_of_le_of_ne hsub.length_le fun heq => ?_
  have hmem : oldest ∈ history.filter fun t => now - period ≤ t :=
    List.mem_filter.mpr ⟨hoccurs, by simpa using hyoung⟩
  rw [← hsub.eq_of_length heq, List.mem_filter, decide_eq_true_eq] at hmem
  omega

/-- A window without room waits until its oldest call is too old. -/
theorem wait_eq {oldest : Int} {rest : List Int} (hfull : (w.trim now).isFull = true)
    (hcalls : (w.trim now).calls = oldest :: rest) :
    ((w.trim now).wait now).1 = max 0 (oldest + w.period + 1 - now) := by
  rw [wait, trim_trim, hfull, if_pos rfl, untilRoom, hcalls]
  rfl

end CallWindow

namespace RateLimits

open CallWindow

variable {method : String} {limit : Nat} {r r' : RateLimits} {now time : Int}
  {pauses history : List Int}

/-! ## The loop -/

/-- A caller tries from a time on, waits as long as it is told, and tries again: its waits, the time
at which its call is noted, and the limits behind it. -/
inductive Acquires (method : String) :
    RateLimits → Int → List Int → Int → RateLimits → Prop where
  /-- there is room -/
  | room {r r' : RateLimits} {now : Int} (h : r.tryAcquire method now = (none, r')) :
    Acquires method r now [] now r'
  /-- there is none yet -/
  | pause {r r' r'' : RateLimits} {now pause time : Int} {pauses : List Int}
    (h : r.tryAcquire method now = (some pause, r'))
    (hrest : Acquires method r' (now + pause) pauses time r'') :
    Acquires method r now (pause :: pauses) time r''

/-- The loop goes one way only. -/
theorem Acquires.unique (h : Acquires method r now pauses time r') {pauses₂ : List Int}
    {time₂ : Int} {r₂ : RateLimits} (h₂ : Acquires method r now pauses₂ time₂ r₂) :
    pauses₂ = pauses ∧ time₂ = time ∧ r₂ = r' := by
  induction h generalizing pauses₂ time₂ r₂ with
  | room h =>
    cases h₂ with
    | room h₂ => simp_all
    | pause h₂ _ => simp_all
  | pause h _ ih =>
    cases h₂ with
    | room h₂ => simp_all
    | pause h₂ hrest₂ =>
      obtain ⟨hpause, rfl⟩ := Prod.mk.inj (h.symm.trans h₂)
      obtain rfl := Option.some.inj hpause
      obtain ⟨rfl, rfl, rfl⟩ := ih hrest₂
      exact ⟨rfl, rfl, rfl⟩

/-- The waits add up. -/
theorem Acquires.time_eq (h : Acquires method r now pauses time r') :
    time = now + pauses.sum := by
  induction h with
  | room => simp
  | pause _ _ ih => rw [ih, List.sum_cons, Int.add_assoc]

/-- With a try for each wait and one more, the loop is through. -/
theorem Acquires.acquireWithin_eq (h : Acquires method r now pauses time r') {tries : Nat}
    (htries : pauses.length < tries) : acquireWithin method tries r now = (some time, r') := by
  induction h generalizing tries with
  | room h =>
    obtain ⟨tries, rfl⟩ := Nat.exists_eq_add_of_lt htries
    rw [acquireWithin, h]
  | pause h _ ih =>
    obtain ⟨tries, rfl⟩ := Nat.exists_eq_add_of_lt htries
    rw [acquireWithin, h]
    refine ih ?_
    rw [List.length_cons]
    omega

/-! ## Windows that are replaced -/

theorem put_put {α : Type} (name : String) (value value' : α) (entries : List (String × α)) :
    put name value (put name value' entries) = put name value entries := by
  induction entries with
  | nil => simp [put]
  | cons e rest ih =>
    by_cases h : e.1 = name
    · simp [put, h]
    · simp [put, h, ih]

@[simp] theorem withWindow_withWindow (w w' : CallWindow) :
    (r.withWindow method w').withWindow method w = r.withWindow method w := by
  simp only [withWindow, put_put]

/-- The tries of a method are bounded by the calls that its window knows. -/
theorem acquire_eq (method : String) (limit : Nat) (r : RateLimits) (now : Int) :
    r.acquire method now
      = acquireWithin method ((r.window method limit).calls.length + 1) r now := by
  rw [acquire, window]
  cases r.windows.find? fun w => w.1 == method <;> rfl

/-! ## Single tries -/

section Tries

variable {n : Nat} {period : Int} {calls : List Int}

/-- Where the last period has room, the call is noted. -/
theorem tryAcquire_of_room (hceiling : r.ceiling method = .limited limit)
    (hwindow : r.window method limit = ⟨n, period, calls⟩) (hperiod : 0 < period)
    (h : CallWindow.Remembers ⟨n, period, calls⟩ history now)
    (hroom : (history.filter fun t => now - period ≤ t).length < n) :
    r.tryAcquire method now = (none, r.withWindow method
      ⟨n, period, (history.filter fun t => now - period ≤ t) ++ [now]⟩) := by
  have hcalls := h.calls_trim
  have hfull : (CallWindow.trim ⟨n, period, calls⟩ now).isFull = false := by
    rw [isFull, hcalls, decide_eq_false_iff_not, Nat.not_le]
    exact hroom
  have hrecord : (CallWindow.trim ⟨n, period, calls⟩ now).record now
      = ⟨n, period, (history.filter fun t => now - period ≤ t) ++ [now]⟩ := by
    rw [record_trim (Int.le_of_lt hperiod)]
    simp only [CallWindow.record, recent_concat (Int.le_of_lt hperiod)]
    rw [← hcalls]
    rfl
  rw [tryAcquire_eq hceiling, hwindow, hfull, hrecord]
  rfl

/-- Where it has none, the caller is told to wait until the oldest call of the last period is too
old. -/
theorem tryAcquire_of_full (hceiling : r.ceiling method = .limited limit)
    (hwindow : r.window method limit = ⟨n, period, calls⟩) (hn : 0 < n)
    (hsorted : history.Pairwise (· ≤ ·)) (hpast : ∀ t ∈ history, t ≤ now)
    (h : CallWindow.Remembers ⟨n, period, calls⟩ history now)
    (hfull : n ≤ (history.filter fun t => now - period ≤ t).length) :
    ∃ oldest ∈ history, now - period ≤ oldest ∧ oldest ≤ now ∧
      (∀ t ∈ history, now - period ≤ t → oldest ≤ t) ∧
      r.tryAcquire method now = (some (oldest + period + 1 - now), r.withWindow method
        ⟨n, period, history.filter fun t => now - period ≤ t⟩) := by
  have hcalls := h.calls_trim
  obtain ⟨oldest, rest, hfirst⟩ := List.exists_cons_of_length_pos (Nat.lt_of_lt_of_le hn hfull)
  have hmem : oldest ∈ history.filter fun t => now - period ≤ t := by
    rw [hfirst]
    exact List.mem_cons_self
  obtain ⟨hoccurs, hyoung⟩ := List.mem_filter.mp hmem
  rw [decide_eq_true_eq] at hyoung
  have hover := hpast oldest hoccurs
  refine ⟨oldest, hoccurs, hyoung, hover, fun t ht ht' => ?_, ?_⟩
  · -- the calls of the last period are in order too
    have horder := hsorted.filter fun t => now - period ≤ t
    have hmem : t ∈ history.filter fun t => now - period ≤ t :=
      List.mem_filter.mpr ⟨ht, by simpa using ht'⟩
    rw [hfirst] at horder hmem
    rcases List.mem_cons.mp hmem with rfl | hmem
    · exact Int.le_refl t
    · exact (List.pairwise_cons.mp horder).1 t hmem
  · have hfull' : (CallWindow.trim ⟨n, period, calls⟩ now).isFull = true := by
      rw [isFull, hcalls, decide_eq_true_eq]
      exact hfull
    rw [tryAcquire_eq hceiling, hwindow, hfull', if_pos rfl,
      wait_eq hfull' (hcalls.trans hfirst)]
    refine Prod.ext (congrArg some ?_) (congrArg (r.withWindow method) ?_)
    · dsimp only
      omega
    · rw [← hcalls]
      rfl

end Tries

/-! ## The end of the loop -/

/-- **The loop ends.** It takes no more waits than there are calls in the last period, no moment
before its end has room for the call, and the call is noted at its end. -/
theorem exists_acquires {n : Nat} {period : Int} {calls : List Int}
    (hceiling : r.ceiling method = .limited limit)
    (hwindow : r.window method limit = ⟨n, period, calls⟩) (hn : 0 < n) (hperiod : 0 < period)
    (hsorted : history.Pairwise (· ≤ ·)) (hpast : ∀ t ∈ history, t ≤ now)
    (h : CallWindow.Remembers ⟨n, period, calls⟩ history now) :
    ∃ pauses time, Acquires method r now pauses time (r.withWindow method
        ⟨n, period, (history.filter fun t => time - period ≤ t) ++ [time]⟩) ∧
      pauses.length ≤ (history.filter fun t => now - period ≤ t).length ∧
      (∀ pause ∈ pauses, 1 ≤ pause ∧ pause ≤ period + 1) ∧ now ≤ time ∧
      (history.filter fun t => time - period ≤ t).length < n ∧
      ∀ t, now ≤ t → t < time → n ≤ (history.filter fun c => t - period ≤ c).length := by
  induction hm : (history.filter fun t => now - period ≤ t).length using Nat.strongRecOn
    generalizing r now calls with
  | ind m ih =>
    by_cases hroom : (history.filter fun t => now - period ≤ t).length < n
    · refine ⟨[], now, .room (tryAcquire_of_room hceiling hwindow hperiod h hroom),
        Nat.zero_le _, by simp, Int.le_refl now, hroom, fun t hle hlt => ?_⟩
      omega
    · replace hroom := Nat.not_lt.mp hroom
      obtain ⟨oldest, hoccurs, hyoung, hover, hfirst, htry⟩ :=
        tryAcquire_of_full hceiling hwindow hn hsorted hpast h hroom
      -- when the wait is over, the oldest call has left the period, and no other has come to it
      have hover' : now + (oldest + period + 1 - now) = oldest + period + 1 := by omega
      have hlater : now ≤ oldest + period + 1 := by omega
      obtain ⟨pauses, time, hacquires, hlength, hpauses, hend, hfree, hbefore⟩ :=
        ih _ (hm ▸ length_filter_lt hoccurs hyoung) (r := r.withWindow method
          ⟨n, period, history.filter fun t => now - period ≤ t⟩)
          hceiling (window_withWindow _) (fun t ht => Int.le_trans (hpast t ht) hlater)
          (fun t ht => recent_filter hsorted (Int.le_trans hlater ht)) rfl
      have hfewer := length_filter_lt hoccurs hyoung
      rw [withWindow_withWindow, ← hover'] at hacquires
      refine ⟨_ :: pauses, time, .pause htry hacquires, ?_, ?_, by omega, hfree,
        fun t hle hlt => ?_⟩
      · rw [List.length_cons]
        omega
      · refine List.forall_mem_cons.mpr ⟨?_, hpauses⟩
        omega
      · by_cases hwaiting : t ≤ oldest + period
        · rw [filter_eq_of_le hfirst hle hwaiting]
          exact hroom
        · exact hbefore t (by omega) hlt

/-- **Waiting.** Take a limited method whose window holds a log of calls in order, none of them
still to come, however many there are. A single caller that waits as long as it is told gets
through, in one way only; no wait is shorter than a millisecond or longer than a period and a
millisecond. Its call is noted at a moment at which the period that ends then holds fewer calls than
the limit, and there is no earlier one. -/
theorem acquire_waits {w : CallWindow} (hceiling : r.ceiling method = .limited limit)
    (hwindow : r.window method limit = w) (hlimit : 0 < w.limit) (hperiod : 0 < w.period)
    (hsorted : w.calls.Pairwise (· ≤ ·)) (hpast : ∀ t ∈ w.calls, t ≤ now) :
    ∃ pauses time r', (∀ pauses₂ time₂ r₂, Acquires method r now pauses₂ time₂ r₂ ↔
        pauses₂ = pauses ∧ time₂ = time ∧ r₂ = r') ∧
      r.acquire method now = (some time, r') ∧
      (∀ pause ∈ pauses, 1 ≤ pause ∧ pause ≤ w.period + 1) ∧ time = now + pauses.sum ∧
      r' = r.withWindow method
        { w with calls := (w.calls.filter fun t => time - w.period ≤ t) ++ [time] } ∧
      now ≤ time ∧ (lastPeriod w.period time w.calls).length < w.limit ∧
      ∀ t, now ≤ t → t < time → w.limit ≤ (lastPeriod w.period t w.calls).length := by
  obtain ⟨pauses, time, hacquires, hlength, hpauses, hend, hfree, hbefore⟩ :=
    exists_acquires hceiling hwindow hlimit hperiod hsorted hpast (remembers_calls hsorted now)
  refine ⟨pauses, time, _, fun pauses₂ time₂ r₂ => ⟨hacquires.unique, ?_⟩, ?_, hpauses,
    hacquires.time_eq, rfl, hend, ?_, fun t hle hlt => ?_⟩
  · rintro ⟨rfl, rfl, rfl⟩
    exact hacquires
  · -- there are tries enough for all waits
    have hknown := List.length_filter_le (fun t => decide (now - w.period ≤ t)) w.calls
    rw [acquire_eq method limit, hwindow]
    exact hacquires.acquireWithin_eq (by omega)
  · rw [lastPeriod_eq hpast hend]
    exact hfree
  · rw [lastPeriod_eq hpast hle]
    exact hbefore t hle hlt

/-- Two calls in ten milliseconds, and four noted already. -/
def overfull : RateLimits :=
  ⟨10, [("getTrades", .limited 2)], .unlimited, [("getTrades", ⟨2, 10, [1, 4, 7, 7]⟩)]⟩

/-- At time eight all four are in the way. The caller waits for the first, for the second, and for
the other two, which leave at once. -/
theorem acquire_waits_overfull :
    overfull.ceiling "getTrades" = .limited 2 ∧
      Acquires "getTrades" overfull 8 [4, 3, 3] 18
        ⟨10, [("getTrades", .limited 2)], .unlimited, [("getTrades", ⟨2, 10, [18]⟩)]⟩ ∧
      (lastPeriod 10 18 [1, 4, 7, 7]).length < 2 ∧
      ∀ t, 8 ≤ t → t < 18 → 2 ≤ (lastPeriod 10 t [1, 4, 7, 7]).length := by
  have hceiling : overfull.ceiling "getTrades" = .limited 2 := by decide
  have hwindow : overfull.window "getTrades" 2 = ⟨2, 10, [1, 4, 7, 7]⟩ := by decide
  have hloop : Acquires "getTrades" overfull 8 [4, 3, 3] 18
      ⟨10, [("getTrades", .limited 2)], .unlimited, [("getTrades", ⟨2, 10, [18]⟩)]⟩ :=
    .pause rfl (.pause rfl (.pause rfl (.room rfl)))
  have hpast : ∀ t ∈ [1, 4, 7, 7], t ≤ (8 : Int) := by decide
  obtain ⟨_, _, _, hiff, -, -, -, -, -, hfree, hbefore⟩ :=
    acquire_waits hceiling hwindow (by decide) (by decide) (by decide) hpast
  obtain ⟨rfl, rfl, rfl⟩ := (hiff _ _ _).mp hloop
  exact ⟨hceiling, hloop, hfree, hbefore⟩

end RateLimits

end AccountHistory
