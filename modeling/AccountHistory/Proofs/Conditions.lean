import Mathlib.Tactic.Common
import AccountHistory.Sql.Command

/-!
# Comparisons and conditions

When two operands are the same, and when the conditions of checks, indexes and triggers hold: values
that miss, integers and texts are told apart as one would expect, and connectives follow the three
truth values.
-/

namespace AccountHistory.Sql

/-! ## Values -/

namespace Value

@[simp] theorem same_int (m n : Int) : (int m).same (int n) = decide (m = n) := by
  simp only [same, compare]
  by_cases h : m = n <;> simp [h]

@[simp] theorem same_text (s t : String) : (text s).same (text t) = decide (s = t) := by
  simp only [same, compare]
  by_cases h : s = t
  · simp [h]
  · by_cases hlt : s < t <;> simp [h, hlt]

@[simp] theorem same_null (v : Value) : v.same null = decide (v = null) := by
  cases v <;> simp [same, compare, rank]

end Value

namespace Affinity

@[simp] theorem numbered_eq_null {v : Value} : numbered v = .null ↔ v = .null := by
  cases v with
  | text s =>
    simp only [numbered, Value.ofText?]
    cases Numeral.ofText? s with
    | none => simp
    | some n =>
      simp only [Value.ofNumeral, Option.map_some, Option.getD_some, reduceCtorEq, iff_false]
      split <;> simp
  | _ => simp [numbered]

@[simp] theorem texted_eq_null {v : Value} : texted v = .null ↔ v = .null := by
  cases v <;> simp [texted]

@[simp] theorem store_integer_int (n : Int) : integer.store (.int n) = .int n := rfl

@[simp] theorem store_text_text (s : String) : text.store (.text s) = .text s := rfl

@[simp] theorem store_null (a : Affinity) : a.store .null = .null := by
  cases a <;> rfl

end Affinity

/-! ## Operands -/

namespace Operand

/-- Two operands are the same if their values are, once brought to one kind. -/
theorem same_eq (a b : Operand) : a.same b = (aligned a b).1.same (aligned a b).2 := rfl

/-- Only what misses is the same as what misses. -/
@[simp] theorem same_null (a : Operand) (b : Option Affinity) :
    a.same ⟨.null, b⟩ = decide (a.value = .null) := by
  have hnumbered : Affinity.numbered .null = .null := rfl
  have htexted : Affinity.texted .null = .null := rfl
  rw [same_eq]
  simp only [aligned]
  cases common a ⟨.null, b⟩ with
  | text =>
    dsimp only
    split <;> simp [htexted]
  | _ => simp [hnumbered]

/-- Integers are compared as they are, whatever their columns prefer. -/
@[simp] theorem same_int (m n : Int) (a b : Option Affinity) :
    (⟨.int m, a⟩ : Operand).same ⟨.int n, b⟩ = decide (m = n) := by
  rw [same_eq]
  simp only [aligned]
  cases common ⟨.int m, a⟩ ⟨.int n, b⟩ <;> simp [isText, Affinity.numbered]

/-- A column of texts is compared with a text as it is. -/
@[simp] theorem same_text (s t : String) :
    (⟨.text s, some .text⟩ : Operand).same ⟨.text t, none⟩ = decide (s = t) := by
  rw [same_eq]
  simp [aligned, common, isText, Affinity.texted]

end Operand

/-! ## Conditions -/

namespace Expr

@[simp] theorem truth?_ofTruth (b : Option Bool) : truth? (ofTruth b) = b := by
  rcases b with - | - | - <;> rfl

theorem eval_binary (scope : Scope) (op : Operator) (e f : Expr) :
    (binary op e f).eval scope = apply op (e.operand scope) (f.operand scope) := rfl

@[simp] theorem truth?_same (scope : Scope) (e f : Expr) :
    truth? ((binary .same e f).eval scope)
      = some ((e.operand scope).same (f.operand scope)) := by
  rw [eval_binary, apply, truth?_ofTruth]

@[simp] theorem truth?_different (scope : Scope) (e f : Expr) :
    truth? ((binary .different e f).eval scope)
      = some !(e.operand scope).same (f.operand scope) := by
  rw [eval_binary, apply, truth?_ofTruth]

@[simp] theorem truth?_and (scope : Scope) (e f : Expr) :
    truth? ((binary .and e f).eval scope)
      = both (truth? (e.eval scope)) (truth? (f.eval scope)) := by
  rw [eval_binary, apply, truth?_ofTruth]
  rfl

@[simp] theorem truth?_or (scope : Scope) (e f : Expr) :
    truth? ((binary .or e f).eval scope)
      = either (truth? (e.eval scope)) (truth? (f.eval scope)) := by
  rw [eval_binary, apply, truth?_ofTruth]
  rfl

theorem comparing_int (m n : Int) (a b : Option Affinity) (test : Ordering → Bool) :
    comparing ⟨.int m, a⟩ ⟨.int n, b⟩ test = ofTruth (some (test (Ord.compare m n))) := by
  have hcompare : (⟨.int m, a⟩ : Operand).compare ⟨.int n, b⟩ = Ord.compare m n := by
    simp only [Operand.compare, Operand.aligned]
    cases Operand.common ⟨.int m, a⟩ ⟨.int n, b⟩ <;>
      simp [Operand.isText, Affinity.numbered, Value.compare]
  rw [comparing, if_neg (by simp), hcompare]

theorem compare_ne_gt (m n : Int) : (Ord.compare m n != .gt) = decide (m ≤ n) := by
  rcases Int.lt_trichotomy m n with h | rfl | h
  · have hle : m ≤ n := by omega
    simp [compareOfLessAndEq, Ord.compare, h, hle]
  · simp
  · have hle : ¬m ≤ n := by omega
    have hlt : ¬m < n := by omega
    have hne : m ≠ n := by omega
    simp [compareOfLessAndEq, Ord.compare, hle, hlt, hne]

end Expr

end AccountHistory.Sql
