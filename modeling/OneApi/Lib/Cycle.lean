import Mathlib.Data.List.Rotate

/-!
# Marked positions of a cycle

The positions `0, …, n - 1` in a cycle, some of them marked.  From a position on, the marked ones come in an order
that is a rotation of their list (`markedFrom_rotated`); a scan finds the first of them (`scan_eq_head`), and a
scan that goes on behind it goes around (`markedFrom_next`).
-/

namespace OneApi.Lib.Cycle

variable {n : ℕ} {marked : ℕ → Bool}

/-- The marked positions from a position on. -/
def markedFrom (n : ℕ) (marked : ℕ → Bool) (start : ℕ) : List ℕ := ((List.range n).rotate start).filter marked

theorem rotate_range (n start : ℕ) : (List.range n).rotate start = (List.range n).map fun i => (start + i) % n := by
  apply List.ext_getElem
  · simp
  · intro i h h'
    simp [List.getElem_rotate, Nat.add_comm]

theorem scan_eq_head (start : ℕ) :
    ((List.range n).find? fun i => marked ((start + i) % n)).map (fun i => (start + i) % n)
      = (markedFrom n marked start).head? := by
  rw [markedFrom, rotate_range, List.head?_filter, List.find?_map]
  rfl

theorem markedFrom_rotated (start : ℕ) :
    ∃ offset, markedFrom n marked start = ((List.range n).filter marked).rotate offset := by
  refine ⟨(((List.range n).take (start % n)).filter marked).length, ?_⟩
  have hsplit : (List.range n).filter marked
      = ((List.range n).take (start % n)).filter marked ++ ((List.range n).drop (start % n)).filter marked := by
    rw [← List.filter_append, List.take_append_drop]
  rw [hsplit, List.rotate_append_length_eq, ← List.filter_append, markedFrom, List.rotate_eq_drop_append_take_mod,
    List.length_range]

/-- Behind the first marked position the others come first, and it comes last. -/
theorem markedFrom_next {start idx : ℕ} {rest : List ℕ} (h : markedFrom n marked start = idx :: rest) :
    markedFrom n marked ((idx + 1) % n) = rest ++ [idx] := by
  obtain ⟨skipped, after, hcycle, hskipped, hidx, rfl⟩ := List.filter_eq_cons_iff.mp h
  -- the cycle, cut behind the position that was found
  have hcut : (List.range n).rotate (start + (skipped.length + 1)) = after ++ (skipped ++ [idx]) := by
    have hlength : skipped.length + 1 = (skipped ++ [idx]).length := by simp
    rw [← List.rotate_rotate, hcycle, hlength, List.append_cons, List.rotate_append_length_eq]
  have hposition : idx = (start + skipped.length) % n := by
    have hget : ((List.range n).rotate start)[skipped.length]? = some idx := by
      rw [hcycle]
      simp
    rw [rotate_range, List.getElem?_map] at hget
    obtain ⟨i, hi, rfl⟩ := Option.map_eq_some_iff.mp hget
    rw [List.getElem?_range (by simpa using (List.getElem?_eq_some_iff.mp hi).1)] at hi
    rw [Option.some.inj hi]
  have hmod : (idx + 1) % n = (start + (skipped.length + 1)) % n := by
    rw [hposition, Nat.mod_add_mod, Nat.add_assoc]
  have hrotate : (List.range n).rotate ((idx + 1) % n) = (List.range n).rotate (start + (skipped.length + 1)) := by
    have hn : (List.range n).length = n := List.length_range
    rw [hmod]
    nth_rewrite 2 [← hn]
    exact List.rotate_mod _ _
  have hnone : skipped.filter marked = [] := List.filter_eq_nil_iff.mpr hskipped
  rw [markedFrom, hrotate, hcut, List.filter_append, List.filter_append, hnone, List.nil_append,
    List.filter_singleton, hidx]
  rfl

/-- The heads of as many rotations as there are elements are the elements. -/
theorem heads_of_rotations {α : Type*} (l : List α) (default : α) :
    (List.range l.length).map (fun k => (l.rotate k).headD default) = l := by
  apply List.ext_getElem
  · simp
  · intro k hk hlt
    simp [List.headD_eq_head?_getD, List.head?_rotate hlt, hlt]

end OneApi.Lib.Cycle
