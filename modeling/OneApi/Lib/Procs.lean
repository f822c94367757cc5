import OneApi.Lib.Run
import Mathlib.Algebra.BigOperators.Group.Finset.Basic
import Mathlib.Data.Fintype.Basic
import Mathlib.Tactic.Abel

/-!
# Processes over a shared store

Any number of processes move one at a time.  A move reads and writes the store and the place its
own process stands at, and no other process; what the environment decides is carried by the action.

Three rules are all that proofs about such systems need.  `Holds.move` keeps an invariant that says
one thing of the store and one thing of every process beside the store: the process that moves
re-establishes both, and the move does not interfere with what is said of the others.
`Exclusive.move` does so for rows that processes lock.  `total_move` follows a quantity summed over
all processes: one summand changes.
-/

namespace OneApi.Lib.Procs

open OneApi.Lib.Run Function

variable {ι σ π α : Type*}

/-- The processes of a system of two. -/
inductive Two
  | first
  | second
  deriving Repr, DecidableEq

instance : Fintype Two where
  elems := {.first, .second}
  complete := by
    intro i
    cases i <;> simp

/-- A store, and the place each process stands at. -/
structure System (ι σ π : Type*) where
  shared : σ
  proc : ι → π

section Moves

variable [DecidableEq ι] (act : σ → π → α → σ × π)

/-- Process `a.1` takes the action `a.2`. -/
def move (s : System ι σ π) (a : ι × α) : System ι σ π :=
  ⟨(act s.shared (s.proc a.1) a.2).1, update s.proc a.1 (act s.shared (s.proc a.1) a.2).2⟩

@[simp] theorem move_shared (s : System ι σ π) (a : ι × α) :
    (move act s a).shared = (act s.shared (s.proc a.1) a.2).1 := rfl

@[simp] theorem move_self (s : System ι σ π) (a : ι × α) :
    (move act s a).proc a.1 = (act s.shared (s.proc a.1) a.2).2 :=
  update_self ..

theorem move_other (s : System ι σ π) (a : ι × α) {j : ι} (hj : j ≠ a.1) : (move act s a).proc j = s.proc j :=
  update_of_ne hj ..

/-- What the process that moves has afterwards and the others had before. -/
theorem update_proc {P : ι → π → Prop} {proc : ι → π} {i : ι} {p : π} (hself : P i p)
    (hother : ∀ j, j ≠ i → P j (proc j)) (j : ι) : P j (update proc i p j) := by
  by_cases hj : j = i
  · subst hj
    rw [update_self]
    exact hself
  · rw [update_of_ne hj]
    exact hother j hj

theorem move_proc {act : σ → π → α → σ × π} {P : ι → π → Prop} {s : System ι σ π} {a : ι × α}
    (hself : P a.1 (act s.shared (s.proc a.1) a.2).2) (hother : ∀ j, j ≠ a.1 → P j (s.proc j))
    (i : ι) : P i ((move act s a).proc i) := update_proc hself hother i

end Moves

section Alone

variable (act : σ → π → α → σ × π)

/-- The moves of a process that no other one interrupts, all with the same action. -/
def alone (a : α) : ℕ → σ → π → σ × π
  | 0, x, p => (x, p)
  | n + 1, x, p => alone a n (act x p a).1 (act x p a).2

theorem alone_succ (a : α) (n : ℕ) (x : σ) (p : π) :
    alone act a (n + 1) x p = alone act a n (act x p a).1 (act x p a).2 := rfl

/-- A process that has come to an end stays there. -/
theorem alone_of_fixed {act : σ → π → α → σ × π} {a : α} {x : σ} {p : π} (h : act x p a = (x, p))
    (n : ℕ) : alone act a n x p = (x, p) := by
  induction n with
  | zero => rfl
  | succ n ih =>
    rw [alone_succ, h]
    exact ih

end Alone

section Places

/-! What is said of a part of a place that only some places have. -/

variable {o : Option α} {P : α → Prop}

theorem forall_of_eq_none (h : o = none) : ∀ a, o = some a → P a := by
  intro a ha
  rw [h] at ha
  cases ha

theorem forall_of_eq_some {b : α} (h : o = some b) (hb : P b) : ∀ a, o = some a → P a := by
  intro a ha
  rw [h] at ha
  cases ha
  exact hb

end Places

/-- One thing holds of the store, and one of every process beside the store. -/
structure Holds (I : σ → Prop) (J : σ → π → Prop) (s : System ι σ π) : Prop where
  shared : I s.shared
  proc : ∀ i, J s.shared (s.proc i)

section Rules

variable [DecidableEq ι] {act : σ → π → α → σ × π} {I : σ → Prop} {J : σ → π → Prop}
  {s : System ι σ π} {a : ι × α}

/-- **Interference freedom.**  The process that moves keeps both parts for itself, and does not
touch what is said of the others. -/
theorem Holds.move (h : Holds I J s) (hself : I s.shared → J s.shared (s.proc a.1) →
      I (act s.shared (s.proc a.1) a.2).1 ∧ J (act s.shared (s.proc a.1) a.2).1 (act s.shared (s.proc a.1) a.2).2)
    (hother : ∀ j, j ≠ a.1 → J s.shared (s.proc j) →
      J (act s.shared (s.proc a.1) a.2).1 (s.proc j)) : Holds I J (move act s a) := by
  obtain ⟨hI, hJ⟩ := hself h.shared (h.proc a.1)
  exact ⟨hI, move_proc hJ fun j hj => hother j hj (h.proc j)⟩

end Rules

section Locks

variable {κ : Type*}

/-- Every row a process holds is locked, and no two processes hold the same one. -/
structure Exclusive (held : π → Option κ) (locked : σ → κ → Bool) (s : System ι σ π) : Prop where
  locked : ∀ i k, held (s.proc i) = some k → locked s.shared k = true
  single : ∀ i j k, held (s.proc i) = some k → held (s.proc j) = some k → i = j

variable {locked : σ → κ → Bool} {held : π → Option κ}

theorem Exclusive.of_none {s : System ι σ π}
    (h : ∀ i, held (s.proc i) = none) : Exclusive held locked s where
  locked i k hk := by
    rw [h i] at hk
    cases hk
  single i j k hk := by
    rw [h i] at hk
    cases hk

/-- **Mutual exclusion.**  A process only takes a row that is free, and only frees the row it
holds. -/
theorem Exclusive.move [DecidableEq ι] {act : σ → π → α → σ × π}
    {s : System ι σ π} {a : ι × α} (h : Exclusive held locked s)
    (htake : ∀ k, held (act s.shared (s.proc a.1) a.2).2 = some k →
      locked (act s.shared (s.proc a.1) a.2).1 k = true ∧ (held (s.proc a.1) = some k ∨ locked s.shared k = false))
    (hfree : ∀ k, locked s.shared k = true → held (s.proc a.1) ≠ some k →
      locked (act s.shared (s.proc a.1) a.2).1 k = true) : Exclusive held locked (move act s a) := by
  -- what the process holds after the move is nobody else's
  have hmine : ∀ j k, j ≠ a.1 → held (act s.shared (s.proc a.1) a.2).2 = some k → held (s.proc j) ≠ some k := by
    intro j k hj hheld hother
    rcases (htake k hheld).2 with hkept | hfree
    · exact hj (h.single j a.1 k hother hkept)
    · rw [h.locked j k hother] at hfree
      cases hfree
  refine ⟨fun i k hi => ?_, fun i j k hi hj => ?_⟩
  · rw [move_shared]
    by_cases hia : i = a.1
    · subst hia
      rw [move_self] at hi
      exact (htake k hi).1
    · rw [move_other act s a hia] at hi
      exact hfree k (h.locked i k hi) fun hheld => hia (h.single i a.1 k hi hheld)
  · by_cases hia : i = a.1
    · by_cases hja : j = a.1
      · rw [hia, hja]
      · rw [hia, move_self] at hi
        rw [move_other act s a hja] at hj
        exact (hmine j k hja hi hj).elim
    · rw [move_other act s a hia] at hi
      by_cases hja : j = a.1
      · rw [hja, move_self] at hj
        exact (hmine i k hia hj hi).elim
      · rw [move_other act s a hja] at hj
        exact h.single i j k hi hj

end Locks

section Totals

variable [Fintype ι] {M : Type*}

/-- A quantity of the processes, summed. -/
def total [AddCommMonoid M] (f : π → M) (s : System ι σ π) : M := ∑ i, f (s.proc i)

/-- **One summand changes.** -/
theorem total_move_add [DecidableEq ι] [AddCommMonoid M] (act : σ → π → α → σ × π) (f : π → M)
    (s : System ι σ π) (a : ι × α) :
    total f (move act s a) + f (s.proc a.1) = total f s + f (act s.shared (s.proc a.1) a.2).2 := by
  have hrest : ∑ j ∈ Finset.univ.erase a.1, f ((move act s a).proc j) = ∑ j ∈ Finset.univ.erase a.1, f (s.proc j) :=
    Finset.sum_congr rfl fun j hj => by rw [move_other act s a (Finset.ne_of_mem_erase hj)]
  have hnew := Finset.add_sum_erase Finset.univ (fun j => f ((move act s a).proc j)) (Finset.mem_univ a.1)
  have hold := Finset.add_sum_erase Finset.univ (fun j => f (s.proc j)) (Finset.mem_univ a.1)
  simp only [move_self, hrest] at hnew
  rw [total, total, ← hnew, ← hold]
  abel

theorem total_move [DecidableEq ι] [AddCommGroup M] (act : σ → π → α → σ × π) (f : π → M)
    (s : System ι σ π) (a : ι × α) :
    total f (move act s a) =
      total f s + (f (act s.shared (s.proc a.1) a.2).2 - f (s.proc a.1)) := by
  rw [← add_sub_assoc, ← total_move_add act f s a, add_sub_cancel_right]

end Totals

end OneApi.Lib.Procs
