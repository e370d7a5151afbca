/-!
# Computations that may fail

What has succeeded before a computation that succeeds.
-/

namespace AccountHistory

variable {ε α β : Type} {x : Except ε α}

/-- A sequence succeeds if its steps do, one after the other. -/
theorem exists_of_bind {f : α → Except ε β} {b : β} (h : x >>= f = .ok b) :
    ∃ a, x = .ok a ∧ f a = .ok b := by
  match x, h with
  | .ok a, h => exact ⟨a, rfl, h⟩

/-- What succeeds behind a function has succeeded before it. -/
theorem map_eq_ok_iff {f : α → β} {b : β} : x.map f = .ok b ↔ ∃ a, x = .ok a ∧ b = f a := by
  constructor
  · intro h
    match x, h with
    | .ok a, h => exact ⟨a, rfl, (Except.ok.inj h).symm⟩
  · rintro ⟨a, rfl, rfl⟩
    rfl

theorem exists_of_map {f : α → β} {b : β} (h : x.map f = .ok b) : ∃ a, x = .ok a ∧ b = f a :=
  map_eq_ok_iff.mp h

/-- What each step keeps holds behind all of them. -/
theorem foldlM_keeps {I : β → Prop} {f : β → α → Except ε β} {l : List α} {b b' : β}
    (hstep : ∀ a ∈ l, ∀ b b', I b → f b a = .ok b' → I b') (hb : I b)
    (h : l.foldlM f b = .ok b') : I b' := by
  induction l generalizing b with
  | nil =>
    obtain rfl := Except.ok.inj h
    exact hb
  | cons a rest ih =>
    rw [List.foldlM_cons] at h
    obtain ⟨b₁, hfirst, h⟩ := exists_of_bind h
    exact ih (fun a' ha' => hstep a' (.tail a ha')) (hstep a (.head rest) b b₁ hb hfirst) h

/-- What succeeds behind a guard has passed it. -/
theorem of_guard {p : Prop} [Decidable p] {e : ε} {a : α}
    (h : (if p then .error e else x) = .ok a) : ¬p ∧ x = .ok a := by
  split at h
  · cases h
  case isFalse hp => exact ⟨hp, h⟩

/-- What agrees behind a function agrees so behind a guard. -/
theorem guard_map {p : Prop} [Decidable p] {e : ε} {f : α → β} {y : Except ε β} (h : y = x.map f) :
    (if p then .error e else y) = (if p then .error e else x).map f := by
  split
  · rfl
  · exact h

/-- What is there has succeeded. -/
theorem of_toOption {a : α} (h : x.toOption = some a) : x = .ok a := by
  match x, h with
  | .ok b, h => rw [Option.some.inj h]

end AccountHistory
