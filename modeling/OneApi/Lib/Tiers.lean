import Mathlib.Data.List.Dedup
import Mathlib.Data.List.Sort

/-!
# Priority tiers and weighted draws

The distinct values of a list from the highest to the lowest (`tiers`), the one a retry gets (`tierAt`: the
lowest once the retries outnumber them), and the draw of an element with a weight: the weights are taken from
a number until it is used up.
-/

namespace OneApi.Lib.Tiers

/-- The distinct values, the highest first. -/
def tiers (l : List ℤ) : List ℤ := l.dedup.insertionSort (· ≥ ·)

/-- The value that a retry gets. -/
def tierAt (l : List ℤ) (retry : ℕ) : Option ℤ := (tiers l)[min retry ((tiers l).length - 1)]?

theorem tierAt_singleton (a : ℤ) (retry : ℕ) : tierAt [a] retry = some a := by
  have hmin : min retry ((tiers [a]).length - 1) = 0 := Nat.min_zero retry
  rw [tierAt, hmin]
  rfl

section Draw

variable {α : Type*}

/-- Take the weights from a number until what is left is used up. -/
def draw (usedUp : ℤ → Bool) (weight : α → ℤ) : List α → ℤ → Option α
  | [], _ => none
  | a :: l, left => if usedUp (left - weight a) then some a else draw usedUp weight l (left - weight a)

theorem mem_of_draw {usedUp : ℤ → Bool} {l : List α} {weight : α → ℤ} {left : ℤ} {a : α}
    (h : draw usedUp weight l left = some a) : a ∈ l := by
  induction l generalizing left with
  | nil => cases h
  | cons b l ih =>
    rw [draw] at h
    split at h
    · rw [Option.some.inj h]
      exact List.mem_cons_self
    · exact List.mem_cons_of_mem b (ih h)

end Draw

end OneApi.Lib.Tiers
