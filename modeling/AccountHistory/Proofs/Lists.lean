import Mathlib.Data.List.Forall2
import Mathlib.Data.List.Induction
import Mathlib.Data.List.Nodup

/-!
# Look-ups, lists that go together, and first ones

What lists of named things need everywhere: that a look-up finds what is there once, what lists have
in common whose elements go together one by one, and which elements are left when all but the first
of equal ones are gone.
-/

namespace AccountHistory

/-! ## Look-ups -/

/-- An element of a list is found by what only it satisfies. -/
theorem find?_eq_of_unique {α : Type} {l : List α} {a : α} {p : α → Bool} (ha : a ∈ l)
    (hp : p a = true) (hunique : ∀ b ∈ l, p b = true → b = a) : l.find? p = some a := by
  cases hfind : l.find? p with
  | none => exact absurd hp (List.find?_eq_none.mp hfind a ha)
  | some b => rw [hunique b (List.mem_of_find?_eq_some hfind) (List.find?_some hfind)]

/-! ## Lists that go together -/

section Together

variable {α β γ : Type} {R : α → β → Prop} {l : List α} {l' : List β}

theorem exists_of_forall₂_of_mem_right (h : List.Forall₂ R l l') {b : β} (hb : b ∈ l') :
    ∃ a ∈ l, R a b := by
  induction h with
  | nil => cases hb
  | cons hfirst _ ih =>
    rcases List.mem_cons.mp hb with rfl | hb
    · exact ⟨_, .head _, hfirst⟩
    · obtain ⟨a, ha, hab⟩ := ih hb
      exact ⟨a, .tail _ ha, hab⟩

theorem exists_of_forall₂_of_mem_left (h : List.Forall₂ R l l') {a : α} (ha : a ∈ l) :
    ∃ b ∈ l', R a b :=
  exists_of_forall₂_of_mem_right (R := fun b a => R a b) h.flip ha

theorem map_eq_map_of_forall₂ {f : α → γ} {g : β → γ} (h : List.Forall₂ R l l')
    (hR : ∀ a b, R a b → f a = g b) : l.map f = l'.map g := by
  rw [← List.forall₂_eq_eq_eq, List.forall₂_map_left_iff, List.forall₂_map_right_iff]
  exact h.imp hR

end Together

/-! ## First ones -/

section FirstOnes

variable {α : Type} [BEq α] [LawfulBEq α] {l : List α} {a : α}

/-- One more item is a repetition, or comes last of the first ones. -/
theorem eraseDups_concat_of_mem (h : a ∈ l) : (l ++ [a]).eraseDups = l.eraseDups := by
  have hgone : [a].removeAll l = [] := by simp [List.removeAll, h]
  rw [List.eraseDups_append, hgone, List.eraseDups_nil, List.append_nil]

theorem eraseDups_concat_of_not_mem (h : a ∉ l) : (l ++ [a]).eraseDups = l.eraseDups ++ [a] := by
  have hstays : [a].removeAll l = [a] := by simp [List.removeAll, h]
  rw [List.eraseDups_append, hstays, List.eraseDups_cons, List.filter_nil, List.eraseDups_nil]

theorem nodup_eraseDups (l : List α) : l.eraseDups.Nodup := by
  induction l using List.reverseRecOn with
  | nil => exact .nil
  | append_singleton l a ih =>
    by_cases h : a ∈ l
    · rwa [eraseDups_concat_of_mem h]
    · rw [eraseDups_concat_of_not_mem h]
      refine List.nodup_append.mpr ⟨ih, List.nodup_singleton a, fun b hb b' hb' heq => ?_⟩
      rw [heq, List.mem_singleton.mp hb', List.mem_eraseDups] at hb
      exact h hb

theorem eraseDups_sublist (l : List α) : l.eraseDups.Sublist l := by
  induction l using List.reverseRecOn with
  | nil => exact .slnil
  | append_singleton l a ih =>
    by_cases h : a ∈ l
    · rw [eraseDups_concat_of_mem h]
      exact ih.trans (List.sublist_append_left l [a])
    · rw [eraseDups_concat_of_not_mem h]
      exact ih.append (List.Sublist.refl [a])

end FirstOnes

end AccountHistory
