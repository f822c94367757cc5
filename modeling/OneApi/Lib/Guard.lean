import Mathlib.Logic.Basic

/-!
# Guards

A function that checks its arguments one by one returns early when a check fails.  What it returns at its end
has passed every check; these rules read the checks off, one by one.
-/

namespace OneApi.Lib.Guard

variable {ε α : Type*} {c : Prop} [Decidable c] {e : ε} {a : α} {k : Except ε α} {o : Option α}

theorem ite_error_eq_ok : (if c then .error e else k) = .ok a ↔ ¬c ∧ k = .ok a := by
  by_cases h : c <;> simp [h]

theorem ite_some_eq_none : (if c then some a else o) = none ↔ ¬c ∧ o = none := by
  by_cases h : c <;> simp [h]

theorem ite_some_error_eq {o : Option (Except ε α)} :
    (if c then some (.error e) else o) = some (.ok a) ↔ ¬c ∧ o = some (.ok a) := by
  by_cases h : c <;> simp [h]

theorem ite_ok_none_eq {k : Except ε (Option α)} :
    (if c then .ok none else k) = .ok (some a) ↔ ¬c ∧ k = .ok (some a) := by
  by_cases h : c <;> simp [h]

end OneApi.Lib.Guard
