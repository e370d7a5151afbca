import AccountHistory.Proofs.Pacing

/-!
# Changes of the default ceiling

The ceiling of a method is looked up at every use, but its limit is copied into the window that is
made at the first use. As long as the default ceiling stays, the two are the same. Where it is set
anew between uses, a window that is there keeps the limit of its making, and room is compared with
that one.

* `Act` is what is done to limits, settings included; `run` does acts one after the other;
* `firstLimit` is the ceiling of a method at its first use while it was limited;
* `enforces_ceiling_iff`: what is enforced is the first limit, so it is the current ceiling if and
  only if the two agree.
-/

namespace AccountHistory

/-- The number of calls that a ceiling allows, if it is limited. -/
def Ceiling.limit? : Ceiling → Option Nat
  | .limited limit => some limit
  | .unlimited => none

theorem Ceiling.limit?_eq_some_iff {c : Ceiling} {limit : Nat} :
    c.limit? = some limit ↔ c = .limited limit := by
  cases c <;> simp [Ceiling.limit?]

namespace RateLimits

/-! ## Acts -/

/-- What is done to limits. -/
inductive Act where
  /-- a method is used -/
  | apply (u : Use)
  /-- the default ceiling is set -/
  | setDefault (c : Ceiling)
  deriving DecidableEq, Repr

/-- The limits behind an act, or why it fails. -/
def act (r : RateLimits) : Act → Except LimitError RateLimits
  | .apply u => .ok (u.leave r)
  | .setDefault c => r.withDefault c

/-- The limits behind acts, one after the other, up to the first that fails. -/
def run (acts : List Act) (r : RateLimits) : Except LimitError RateLimits :=
  acts.foldlM act r

/-- The ceiling of a method at the first use that finds it limited. -/
def firstLimit (method : String) : List Act → RateLimits → Option Nat
  | [], _ => none
  | .apply u :: rest, r =>
    (if u.method = method then (r.ceiling method).limit? else none).or
      (firstLimit method rest (u.leave r))
  | .setDefault c :: rest, r => firstLimit method rest { r with defaultCeiling := c }

/-- The limit of the window of a method, if there is one. -/
def windowLimit? (r : RateLimits) (method : String) : Option Nat :=
  (r.windows.find? fun w => w.1 == method).map fun w => w.2.limit

variable {r r' : RateLimits} {method : String} {limit n : Nat} {acts : List Act}

theorem limit_window (r : RateLimits) (method : String) (n : Nat) :
    (r.window method n).limit = (r.windowLimit? method).getD n := by
  rw [window, windowLimit?]
  cases r.windows.find? fun w => w.1 == method <;> rfl

theorem windowLimit?_withWindow (w : CallWindow) :
    (r.withWindow method w).windowLimit? method = some w.limit := by
  rw [windowLimit?, withWindow, find?_put]
  rfl

theorem windowLimit?_withWindow_of_ne {name : String} (h : name ≠ method) (w : CallWindow) :
    (r.withWindow name w).windowLimit? method = r.windowLimit? method := by
  rw [windowLimit?, withWindow, find?_put_of_ne h, windowLimit?]

/-- **A single use.** A window keeps its limit, and a new one has the ceiling of its method. -/
theorem windowLimit?_leave (u : Use) (r : RateLimits) :
    (u.leave r).windowLimit? method = (r.windowLimit? method).or
      (if u.method = method then (r.ceiling method).limit? else none) := by
  obtain ⟨hceiling, heq⟩ | ⟨limit, w, hceiling, heq, hlimit⟩ := leave_cases u r
  · rw [heq]
    split
    case isTrue hu => rw [← hu, hceiling, Ceiling.limit?, Option.or_none]
    case isFalse => rw [Option.or_none]
  · rw [heq]
    split
    case isTrue hu =>
      rw [← hu, windowLimit?_withWindow, hlimit, limit_window, hceiling, Ceiling.limit?]
      cases r.windowLimit? u.method <;> rfl
    case isFalse hu => rw [windowLimit?_withWindow_of_ne hu, Option.or_none]

theorem withDefault_ok {c : Ceiling} (h : r.withDefault c = .ok r') :
    r' = { r with defaultCeiling := c } :=
  (Except.ok.inj (of_guard h).2).symm

/-- **Whole runs.** A window that is there keeps its limit, and one that is made has the first limit
of its method. -/
theorem windowLimit?_run (h : run acts r = .ok r') :
    r'.windowLimit? method = (r.windowLimit? method).or (firstLimit method acts r) := by
  induction acts generalizing r with
  | nil =>
    obtain rfl := Except.ok.inj h
    exact (Option.or_none).symm
  | cons a rest ih =>
    rw [run, List.foldlM_cons] at h
    obtain ⟨r₁, hfirst, hrest⟩ := exists_of_bind h
    rw [ih hrest]
    cases a with
    | apply u =>
      obtain rfl := Except.ok.inj hfirst
      rw [windowLimit?_leave, Option.or_assoc, firstLimit]
    | setDefault c =>
      obtain rfl := withDefault_ok hfirst
      rfl

/-! ## Ceilings of their own -/

theorem ceilings_leave (u : Use) (r : RateLimits) : (u.leave r).ceilings = r.ceilings := by
  rcases leave_eq_or u r with heq | ⟨w, heq⟩
  · rw [heq]
  · rw [heq]
    rfl

theorem ceilings_run (h : run acts r = .ok r') : r'.ceilings = r.ceilings := by
  refine foldlM_keeps (I := fun r₁ => r₁.ceilings = r.ceilings) (fun a _ r₁ r₂ hr₁ ha => ?_) rfl h
  cases a with
  | apply u =>
    obtain rfl := Except.ok.inj ha
    rw [ceilings_leave, hr₁]
  | setDefault c =>
    obtain rfl := withDefault_ok ha
    exact hr₁

/-- The first limit of a method with a ceiling of its own is that ceiling. -/
theorem firstLimit_of_own {own : String × Ceiling}
    (hown : (r.ceilings.find? fun c => c.1 == method) = some own)
    (h : firstLimit method acts r = some limit) : own.2 = .limited limit := by
  induction acts generalizing r with
  | nil => cases h
  | cons a rest ih =>
    cases a with
    | apply u =>
      rw [firstLimit, Option.or_eq_some_iff] at h
      obtain hfirst | ⟨-, hrest⟩ := h
      · split at hfirst
        · rw [ceiling, hown] at hfirst
          exact Ceiling.limit?_eq_some_iff.mp hfirst
        · cases hfirst
      · exact ih (by rwa [ceilings_leave]) hrest
    | setDefault c =>
      rw [firstLimit] at h
      exact ih (r := { r with defaultCeiling := c }) hown h

/-! ## What is enforced -/

/-- Limits as they are made. -/
def IsNew (r : RateLimits) : Prop :=
  r = standard ∨ ∃ period ceilings, new period ceilings = .ok r

theorem IsNew.windowLimit? (h : r.IsNew) : r.windowLimit? method = none := by
  have hnone : r.windows = [] := by
    obtain rfl | ⟨period, ceilings, hnew⟩ := h
    · rfl
    · exact (new_ok hnew).2.2
  rw [RateLimits.windowLimit?, hnone]
  rfl

/-- The limit of the window of a limited method is its first limit, or the current one if it is not
in use yet. -/
theorem limit_window_run (hnew : r.IsNew) (h : run acts r = .ok r') :
    (r'.window method n).limit = (firstLimit method acts r).getD n := by
  rw [limit_window, windowLimit?_run h, hnew.windowLimit?, Option.none_or]

/-- A method has no room if the calls of the last period are as many as the limit of its window. -/
theorem atLimit_iff (hceiling : r.ceiling method = .limited n) (now : Int) :
    (r.atLimit method now).1 = true ↔
      (r.window method n).limit ≤ ((r.window method n).trim now).calls.length := by
  simp only [atLimit, hceiling, CallWindow.atLimit, CallWindow.isFull, decide_eq_true_eq]
  rfl

/-- A call is granted if they are fewer. -/
theorem tryAcquire_eq_none_iff (hceiling : r.ceiling method = .limited n) (now : Int) :
    (r.tryAcquire method now).1 = none ↔
      ((r.window method n).trim now).calls.length < (r.window method n).limit := by
  have hfull : ((r.window method n).trim now).isFull = true ↔
      (r.window method n).limit ≤ ((r.window method n).trim now).calls.length := decide_eq_true_iff
  rw [tryAcquire_eq hceiling, ← Nat.not_le, ← hfull]
  cases ((r.window method n).trim now).isFull <;> simp

/-- **Changes of the default ceiling.** Limits are made, and then methods are used and the default
ceiling is set, in any order and as often as wanted. What is compared with the calls of a limited
method is the limit of its window. This is the ceiling that the method had at its first use while it
was limited, and the current one before that; so it is the current one if and only if the two agree.
They do if the method has a ceiling of its own. -/
theorem enforces_ceiling_iff (hnew : r.IsNew) (h : run acts r = .ok r')
    (hceiling : r'.ceiling method = .limited n) :
    (∀ now, (r'.atLimit method now).1 = true ↔
      (r'.window method n).limit ≤ ((r'.window method n).trim now).calls.length) ∧
    (∀ now, (r'.tryAcquire method now).1 = none ↔
      ((r'.window method n).trim now).calls.length < (r'.window method n).limit) ∧
    (r'.window method n).limit = (firstLimit method acts r).getD n ∧
    ((r'.window method n).limit = n ↔ ∀ limit, firstLimit method acts r = some limit → limit = n) ∧
    ((∃ c ∈ r.ceilings, c.1 = method) → (r'.window method n).limit = n) := by
  have hlimit : (r'.window method n).limit = (firstLimit method acts r).getD n :=
    limit_window_run hnew h
  have hagree : (r'.window method n).limit = n ↔
      ∀ limit, firstLimit method acts r = some limit → limit = n := by
    rw [hlimit]
    cases firstLimit method acts r <;> simp
  refine ⟨atLimit_iff hceiling, tryAcquire_eq_none_iff hceiling, hlimit, hagree, ?_⟩
  rintro ⟨c, hc, rfl⟩
  rw [hagree]
  intro limit hfirst
  have hthere : (r.ceilings.find? fun own => own.1 == c.1).isSome = true :=
    List.find?_isSome.mpr ⟨c, hc, beq_self_eq_true c.1⟩
  obtain ⟨own, hown⟩ := Option.isSome_iff_exists.mp hthere
  have hthen := firstLimit_of_own hown hfirst
  -- the ceiling of its own is the current one, too
  rw [ceiling, ceilings_run h, hown] at hceiling
  exact Ceiling.limited.inj (hthen.symm.trans hceiling)

/-- A method is used between two settings of the default ceiling. -/
def raising : List Act :=
  [.setDefault (.limited 1), .apply ⟨.note, "getTrades", 0⟩, .setDefault (.limited 2)]

/-- The limits behind these acts. -/
def raised : RateLimits := ⟨defaultPeriod, [], .limited 2, [("getTrades", ⟨1, defaultPeriod, [0]⟩)]⟩

/-- The ceiling of the method is two calls, and it has made one; still there is no room. -/
theorem enforces_ceiling_iff_raising :
    IsNew standard ∧ run raising standard = .ok raised ∧
      raised.ceiling "getTrades" = .limited 2 ∧
      ((raised.window "getTrades" 2).trim 0).calls = [0] ∧
      (raised.window "getTrades" 2).limit ≠ 2 ∧ (raised.atLimit "getTrades" 0).1 = true := by
  have hrun : run raising standard = .ok raised := by decide
  have hceiling : raised.ceiling "getTrades" = .limited 2 := by decide
  obtain ⟨hatLimit, -, -, hagree, -⟩ := enforces_ceiling_iff (.inl rfl) hrun hceiling
  have hcalls : ((raised.window "getTrades" 2).trim 0).calls = [0] := by decide
  refine ⟨.inl rfl, hrun, hceiling, hcalls, ?_, ?_⟩
  · intro hsame
    exact absurd (hagree.mp hsame 1 (by decide)) (by decide)
  · rw [hatLimit, hcalls]
    decide

end RateLimits

end AccountHistory
