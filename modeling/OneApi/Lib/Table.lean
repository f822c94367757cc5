import Mathlib.Data.List.Nodup
import Mathlib.Algebra.BigOperators.Group.List.Basic
import Mathlib.Tactic.Linarith
import Mathlib.Tactic.Ring

/-!
# Database tables with a unique key

A table is a list of rows whose keys are pairwise distinct; the distinctness is a field, so a
table with two rows of one key cannot be built.  The operations are the ones a transaction
issues: read by key (`find`), write back a row that was read (`save`), insert under the unique
index (`insert`, which fails on a duplicate key) and delete by key (`delete`).

Each operation comes with what it does to `find` and to membership; a sum over the rows is read
key by key.
-/

namespace OneApi.Lib

open Function

/-- Rows with pairwise distinct keys. -/
structure Table (ρ : Type*) {κ : Type*} (key : ρ → κ) where
  rows : List ρ
  keys_nodup : (rows.map key).Nodup

namespace Table

variable {ρ κ : Type*} {key : ρ → κ}

def empty : Table ρ key := ⟨[], List.nodup_nil⟩

def single (r : ρ) : Table ρ key := ⟨[r], List.nodup_singleton (key r)⟩

def pair (r x : ρ) (h : key r ≠ key x) : Table ρ key :=
  ⟨[r, x], List.nodup_cons.mpr ⟨fun hmem => h (List.mem_singleton.mp hmem), List.nodup_singleton (key x)⟩⟩

section Keys

variable [DecidableEq κ]

/-- The row with a key, if there is one. -/
def find (t : Table ρ key) (k : κ) : Option ρ := t.rows.find? fun r => key r = k

variable {t : Table ρ key} {k : κ} {r : ρ}

theorem find_mem (h : t.find k = some r) : r ∈ t.rows :=
  List.mem_of_find?_eq_some h

theorem find_key (h : t.find k = some r) : key r = k := by
  simpa using List.find?_some h

theorem find_none_iff : t.find k = none ↔ ∀ r ∈ t.rows, key r ≠ k := by
  simp [find, List.find?_eq_none]

/-- Distinct keys: a row of the table is the one its key finds. -/
theorem find_of_mem (h : r ∈ t.rows) : t.find (key r) = some r := by
  obtain ⟨rows, hnd⟩ := t
  simp only [find] at h ⊢
  induction rows with
  | nil => simp at h
  | cons x xs ih =>
    rw [List.map_cons, List.nodup_cons] at hnd
    rcases List.mem_cons.mp h with rfl | hx
    · simp
    · have hne : key x ≠ key r := fun e => hnd.1 (e ▸ List.mem_map_of_mem hx)
      rw [List.find?_cons_of_neg (by simpa using hne)]
      exact ih hnd.2 hx

theorem eq_of_key_eq {x : ρ} (hr : r ∈ t.rows) (hx : x ∈ t.rows) (h : key r = key x) : r = x := by
  have h₁ := find_of_mem hr
  rw [h, find_of_mem hx] at h₁
  exact (Option.some.inj h₁).symm

/-- At most one row has a key. -/
theorem length_filter_key_le (t : Table ρ key) (k : κ) : (t.rows.filter fun r => key r = k).length ≤ 1 := by
  have hcount := List.nodup_iff_count_le_one.mp t.keys_nodup k
  rw [List.count, List.countP_map, List.countP_eq_length_filter] at hcount
  exact hcount

/-- Replace the row that has the key of `r` by `r`. -/
def save (t : Table ρ key) (r : ρ) : Table ρ key where
  rows := t.rows.map fun x => if key x = key r then r else x
  keys_nodup := by
    have h : (t.rows.map fun x => if key x = key r then r else x).map key = t.rows.map key := by
      rw [List.map_map]
      apply List.map_congr_left
      intro x _
      by_cases hx : key x = key r <;> simp [hx]
    rw [h]
    exact t.keys_nodup

theorem mem_save {x : ρ} (h : x ∈ (t.save r).rows) : x = r ∨ (x ∈ t.rows ∧ key x ≠ key r) := by
  obtain ⟨y, hy, rfl⟩ := List.mem_map.mp h
  by_cases hk : key y = key r
  · left; simp [hk]
  · right; simpa [hk] using hy

/-- A row property holds after a write if it held before and holds of the written row. -/
theorem forall_save {P : ρ → Prop} (h : ∀ x ∈ t.rows, P x) (hr : P r) : ∀ x ∈ (t.save r).rows, P x := by
  intro x hx
  rcases mem_save hx with rfl | ⟨hx, _⟩
  · exact hr
  · exact h x hx

theorem save_keys (t : Table ρ key) (r : ρ) : (t.save r).rows.map key = t.rows.map key := by
  simp only [save, List.map_map]
  apply List.map_congr_left
  intro x _
  by_cases hx : key x = key r <;> simp [hx]

theorem find_save_of_ne (h : k ≠ key r) : (t.save r).find k = t.find k := by
  obtain ⟨rows, hnd⟩ := t
  simp only [find, save]
  clear hnd
  induction rows with
  | nil => rfl
  | cons x xs ih =>
    rw [List.map_cons]
    by_cases hx : key x = key r
    · have h₁ : ¬ key r = k := fun e => h e.symm
      have h₂ : ¬ key x = k := fun e => h₁ (hx ▸ e)
      rw [List.find?_cons_of_neg (by simpa [hx] using h₁), ih, List.find?_cons_of_neg (by simpa using h₂)]
    · by_cases hk : key x = k
      · rw [List.find?_cons_of_pos (by simpa [hx] using hk), List.find?_cons_of_pos (by simpa using hk), if_neg hx]
      · rw [List.find?_cons_of_neg (by simpa [hx] using hk), ih, List.find?_cons_of_neg (by simpa using hk)]

theorem find_save_self {old : ρ} (h : t.find (key r) = some old) : (t.save r).find (key r) = some r := by
  have hm : r ∈ (t.save r).rows := by
    refine List.mem_map.mpr ⟨old, find_mem h, ?_⟩
    simp [find_key h]
  exact find_of_mem hm

/-- A write that keeps what is read of a row. -/
theorem map_save {β : Type*} {old : ρ} (h : t.find (key r) = some old) {f : ρ → β} (hf : f r = f old) :
    (t.save r).rows.map f = t.rows.map f := by
  simp only [save, List.map_map]
  refine List.map_congr_left fun x hx => ?_
  simp only [comp_apply]
  split
  · next hx' =>
    have hkey := find_key h
    rw [hf, eq_of_key_eq hx (find_mem h) (hx'.trans hkey.symm)]
  · rfl

/-- A write changes a sum by the new row minus the one it replaces. -/
theorem sum_save {old : ρ} (h : t.find (key r) = some old) (f : ρ → ℤ) :
    ((t.save r).rows.map f).sum + f old = (t.rows.map f).sum + f r := by
  obtain ⟨rows, hnd⟩ := t
  simp only [find, save] at h ⊢
  induction rows with
  | nil => cases h
  | cons x xs ih =>
    rw [List.map_cons, List.nodup_cons] at hnd
    rw [List.map_cons, List.map_cons, List.map_cons, List.sum_cons, List.sum_cons]
    by_cases hx : key x = key r
    · have hrest : (xs.map fun y => if key y = key r then r else y) = xs := by
        refine (List.map_congr_left fun y hy => if_neg ?_).trans (List.map_id xs)
        exact fun e => hnd.1 (hx.trans e.symm ▸ List.mem_map_of_mem hy)
      rw [List.find?_cons_of_pos (by simpa using hx)] at h
      rw [hrest, if_pos hx, Option.some.inj h]
      ring
    · rw [List.find?_cons_of_neg (by simpa using hx)] at h
      have hxs := ih hnd.2 h
      rw [if_neg hx]
      linarith

/-- A conditional update of the row with a key; `none` means that no row was affected. -/
def updateIf (t : Table ρ key) (k : κ) (p : ρ → Bool) (f : ρ → ρ) : Option (Table ρ key) :=
  match t.find k with
  | none => none
  | some r => if p r then some (t.save (f r)) else none

variable {t' : Table ρ key} {p : ρ → Bool}

theorem updateIf_eq_some {f : ρ → ρ}
    (h : t.updateIf k p f = some t') : ∃ r, t.find k = some r ∧ p r = true ∧ t' = t.save (f r) := by
  rw [updateIf] at h
  split at h
  · cases h
  · next r hr =>
    split at h
    · next hp => exact ⟨r, hr, hp, (Option.some.inj h).symm⟩
    · cases h

theorem updateIf_of_find {f : ρ → ρ}
    (hr : t.find k = some r) (hp : p r = true) : t.updateIf k p f = some (t.save (f r)) := by
  simp only [updateIf, hr, hp, if_true]

/-- A sum over the rows, read key by key. -/
theorem sum_eq_sum_keys (t : Table ρ key) (f : ρ → ℤ) :
    (t.rows.map f).sum = ((t.rows.map key).map fun k => ((t.find k).map f).getD 0).sum := by
  rw [List.map_map]
  congr 1
  apply List.map_congr_left
  intro r hr
  simp [find_of_mem hr]

/-- Insert under the unique index; `none` is the duplicate-key error. -/
def insert (t : Table ρ key) (r : ρ) : Option (Table ρ key) :=
  if h : key r ∈ t.rows.map key then none
  else some
    { rows := t.rows ++ [r]
      keys_nodup := by
        rw [List.map_append, List.map_cons, List.map_nil, List.nodup_append]
        refine ⟨t.keys_nodup, List.nodup_singleton _, ?_⟩
        intro a ha b hb
        rw [List.mem_singleton] at hb
        subst hb
        exact fun e => h (e ▸ ha) }

theorem insert_eq_none_iff : t.insert r = none ↔ t.find (key r) ≠ none := by
  rw [Ne, find_none_iff]
  unfold insert
  split
  · rename_i h
    obtain ⟨x, hx, hk⟩ := List.mem_map.mp h
    simp only [true_iff]
    exact fun hall => hall x hx hk
  · rename_i h
    simp only [reduceCtorEq, false_iff, not_not]
    exact fun x hx e => h (e ▸ List.mem_map_of_mem hx)

variable (h : t.insert r = some t')

include h in
theorem insert_rows : t'.rows = t.rows ++ [r] := by
  unfold insert at h
  split at h
  · cases h
  · cases h; rfl

include h in
theorem find_eq_none_of_insert : t.find (key r) = none := by
  by_contra hne
  rw [insert_eq_none_iff.mpr hne] at h
  cases h

include h in
theorem find_insert_of_ne (hk : k ≠ key r) : t'.find k = t.find k := by
  rw [find, find, insert_rows h, List.find?_append,
    List.find?_cons_of_neg (by simpa using hk.symm), List.find?_nil, Option.or_none]

include h in
theorem find_insert_self : t'.find (key r) = some r := by
  apply find_of_mem
  rw [insert_rows h]
  simp

include h in
theorem sum_insert (f : ρ → ℤ) : (t'.rows.map f).sum = (t.rows.map f).sum + f r := by
  rw [insert_rows h, List.map_append, List.sum_append, List.map_singleton, List.sum_singleton]

include h in
theorem forall_insert {P : ρ → Prop} (hall : ∀ x ∈ t.rows, P x) (hr : P r) : ∀ x ∈ t'.rows, P x := by
  intro x hx
  rw [insert_rows h, List.mem_append, List.mem_singleton] at hx
  rcases hx with hx | rfl
  · exact hall x hx
  · exact hr

/-- Delete the row with a key. -/
def delete (t : Table ρ key) (k : κ) : Table ρ key where
  rows := t.rows.filter fun r => key r ≠ k
  keys_nodup := t.keys_nodup.sublist (List.filter_sublist.map key)

theorem mem_delete : r ∈ (t.delete k).rows ↔ r ∈ t.rows ∧ key r ≠ k := by
  simp [delete]

/-- Delete the rows that satisfy a condition. -/
def deleteWhere (t : Table ρ key) (p : ρ → Bool) : Table ρ key where
  rows := t.rows.filter fun r => !p r
  keys_nodup := t.keys_nodup.sublist (List.filter_sublist.map key)

theorem find_deleteWhere (h : t.find k = some r) (hp : p r = false) : (t.deleteWhere p).find k = some r := by
  have hmem : r ∈ (t.deleteWhere p).rows :=
    List.mem_filter.mpr ⟨find_mem h, by rw [hp]; rfl⟩
  rw [← find_key h]
  exact find_of_mem hmem

end Keys

/-- Rewrite the rows that satisfy a condition, keeping their keys. -/
def updateWhere (t : Table ρ key) (p : ρ → Bool) (f : ρ → ρ) (hf : ∀ r, key (f r) = key r) :
    Table ρ key where
  rows := t.rows.map fun r => if p r then f r else r
  keys_nodup := by
    have h : (t.rows.map fun r => if p r then f r else r).map key = t.rows.map key := by
      rw [List.map_map]
      apply List.map_congr_left
      intro r _
      by_cases hp : p r <;> simp [hp, hf]
    rw [h]
    exact t.keys_nodup

theorem find_updateWhere [DecidableEq κ] {t : Table ρ key} {p : ρ → Bool} {f : ρ → ρ}
    {hf : ∀ r, key (f r) = key r} (k : κ) :
    (t.updateWhere p f hf).find k = (t.find k).map fun r => if p r then f r else r := by
  have hkey : ((fun r => decide (key r = k)) ∘ fun r => if p r then f r else r) = fun r => decide (key r = k) := by
    funext r
    by_cases hp : p r <;> simp [hp, hf]
  rw [find, updateWhere, List.find?_map, hkey]
  rfl

theorem mem_updateWhere {t : Table ρ key} {p : ρ → Bool} {f : ρ → ρ} {hf : ∀ r, key (f r) = key r} {r : ρ} :
    r ∈ (t.updateWhere p f hf).rows ↔ ∃ x ∈ t.rows, (if p x then f x else x) = r := by
  simp [updateWhere]

section Counts

variable {t : Table ρ key} {p q : ρ → Bool} {f : ρ → ρ} {hf : ∀ r, key (f r) = key r}

theorem countP_map_ite_le (hq : ∀ r, q (f r) → q r) (rows : List ρ) :
    (rows.map fun r => if p r then f r else r).countP q ≤ rows.countP q := by
  rw [List.countP_map]
  apply List.countP_mono_left
  intro r _ hr
  by_cases hp : p r
  · simp only [comp_apply, if_pos hp] at hr
    exact hq r hr
  · simpa only [comp_apply, if_neg hp] using hr

/-- Rows are only taken out of a count. -/
theorem countP_updateWhere_le (hq : ∀ r, q (f r) → q r) : (t.updateWhere p f hf).rows.countP q ≤ t.rows.countP q :=
  countP_map_ite_le hq t.rows

/-- One of the rows is really taken out. -/
theorem countP_updateWhere_lt (hq : ∀ r, q (f r) → q r) {x : ρ} (hx : x ∈ t.rows) (hpx : p x)
    (hqx : q x) (hfx : ¬ q (f x)) : (t.updateWhere p f hf).rows.countP q < t.rows.countP q := by
  obtain ⟨before, after, hrows⟩ := List.append_of_mem hx
  have hbefore := countP_map_ite_le (p := p) hq before
  have hafter := countP_map_ite_le (p := p) hq after
  simp only [updateWhere, hrows, List.map_append, List.map_cons, List.countP_append,
    List.countP_cons, if_pos hpx, if_pos hqx, if_neg hfx]
  omega

end Counts

end Table

end OneApi.Lib
