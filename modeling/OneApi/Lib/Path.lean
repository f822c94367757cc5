import Mathlib.Data.List.Dedup
import Mathlib.Data.List.Perm.Basic

/-!
# Paths given by their edges

A list of edges is a path from `base` to `top` when each edge starts where the one before it
ended.  On a path through distinct nodes the first node is the only one that is left and never
entered, and the last one is the only one that is entered and never left; `sources_filter` and
`targets_filter` say so for the edges in any order.
-/

namespace OneApi.Lib

variable {α : Type*}

/-- The edges lead from `base` to `top`, one after the other. -/
def Path (base : α) : List (α × α) → α → Prop
  | [], top => base = top
  | (p, u) :: es, top => p = base ∧ Path u es top

namespace Path

variable {base top : α} {es : List (α × α)}

theorem snoc {next : α} (h : Path base es top) : Path base (es ++ [(top, next)]) next := by
  induction es generalizing base with
  | nil => exact ⟨(show base = top from h).symm, rfl⟩
  | cons e es ih => exact ⟨h.1, ih h.2⟩

/-- The nodes of a path, read off the starts and read off the ends. -/
theorem nodes (h : Path base es top) : es.map Prod.fst ++ [top] = base :: es.map Prod.snd := by
  induction es generalizing base with
  | nil => rw [show base = top from h]; rfl
  | cons e es ih =>
    obtain ⟨p, u⟩ := e
    rw [List.map_cons, List.cons_append, ih h.2, List.map_cons, show p = base from h.1]

theorem base_mem (h : Path base es top) (hne : es ≠ []) : base ∈ es.map Prod.fst := by
  obtain ⟨⟨p, u⟩, rest, rfl⟩ := List.exists_cons_of_ne_nil hne
  rw [List.map_cons, show p = base from h.1]
  exact List.mem_cons_self

section Distinct

variable {base top : α} {es : List (α × α)} (h : Path base es top)
  (hnd : (base :: es.map Prod.snd).Nodup)

include h hnd

theorem fst_nodup : (es.map Prod.fst).Nodup ∧ top ∉ es.map Prod.fst := by
  have hnd' : (es.map Prod.fst ++ [top]).Nodup := h.nodes ▸ hnd
  rw [List.nodup_append] at hnd'
  exact ⟨hnd'.1, fun hmem => hnd'.2.2 top hmem top (by simp) rfl⟩

/-- Only the base is left without having been entered. -/
theorem mem_source_iff (hne : es ≠ []) (x : α) : x ∈ es.map Prod.fst ∧ x ∉ es.map Prod.snd ↔ x = base := by
  constructor
  · rintro ⟨hfst, hsnd⟩
    have hx : x ∈ base :: es.map Prod.snd := by
      rw [← h.nodes]
      exact List.mem_append_left _ hfst
    rcases List.mem_cons.mp hx with rfl | hx
    · rfl
    · exact absurd hx hsnd
  · rintro rfl
    exact ⟨h.base_mem hne, (List.nodup_cons.mp hnd).1⟩

/-- Only the top is entered and not left again. -/
theorem mem_target_iff (hne : es ≠ []) (x : α) : x ∈ es.map Prod.snd ∧ x ∉ es.map Prod.fst ↔ x = top := by
  constructor
  · rintro ⟨hsnd, hfst⟩
    have hx : x ∈ es.map Prod.fst ++ [top] := by
      rw [h.nodes]
      exact List.mem_cons_of_mem _ hsnd
    rcases List.mem_append.mp hx with hx | hx
    · exact absurd hx hfst
    · exact List.mem_singleton.mp hx
  · rintro rfl
    have htop := (h.fst_nodup hnd).2
    have hx : x ∈ base :: es.map Prod.snd := by
      rw [← h.nodes]
      exact List.mem_append_right _ (List.mem_singleton.mpr rfl)
    rcases List.mem_cons.mp hx with rfl | hx
    · exact absurd (h.base_mem hne) htop
    · exact ⟨hx, htop⟩

variable [DecidableEq α] {es' : List (α × α)}

/-- The edges in any order have the base as their only source. -/
theorem sources_filter (hne : es ≠ []) (hperm : es'.Perm es) :
    (es'.map Prod.fst).filter (fun x => x ∉ es'.map Prod.snd) = [base] := by
  have hnd' : (es'.map Prod.fst).Nodup := (hperm.map Prod.fst).nodup_iff.mpr (h.fst_nodup hnd).1
  rw [← List.perm_singleton, List.perm_ext_iff_of_nodup (hnd'.filter _) (List.nodup_singleton _)]
  intro x
  rw [List.mem_filter, decide_eq_true_eq, List.mem_singleton, ← h.mem_source_iff hnd hne x,
    (hperm.map Prod.fst).mem_iff, (hperm.map Prod.snd).mem_iff]

/-- The edges in any order have the top as their only target. -/
theorem targets_filter (hne : es ≠ []) (hperm : es'.Perm es) :
    (es'.map Prod.snd).dedup.filter (fun x => x ∉ es'.map Prod.fst) = [top] := by
  rw [← List.perm_singleton, List.perm_ext_iff_of_nodup ((List.nodup_dedup _).filter _) (List.nodup_singleton _)]
  intro x
  rw [List.mem_filter, decide_eq_true_eq, List.mem_dedup, List.mem_singleton,
    ← h.mem_target_iff hnd hne x, (hperm.map Prod.fst).mem_iff, (hperm.map Prod.snd).mem_iff]

end Distinct

end Path

end OneApi.Lib
