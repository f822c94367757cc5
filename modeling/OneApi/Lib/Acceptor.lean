import Mathlib.Data.List.Basic

/-!
# Acceptors

An acceptor reads events one by one and refuses the first one that does not fit where it is.  The
events a component sends are well formed for it when it reads them all.

`Reads` says exactly when a list of events is read, and what holds of the acceptor afterwards.  A
component that puts its events together from several lists is followed by `Reads.append`; the
condition is an equivalence throughout, so that what is derived for the whole list is exact too.
-/

namespace OneApi.Lib.Acceptor

variable {σ ε : Type*} {accept : σ → ε → Option σ} {s s' : σ} {e : ε} {as bs : List ε}
  {C C' : Prop} {D Q : σ → Prop}

/-- Where the acceptor is after a list of events, if it accepts them. -/
def read (accept : σ → ε → Option σ) (s : σ) (events : List ε) : Option σ := events.foldlM accept s

@[simp] theorem read_nil : read accept s [] = some s := rfl

@[simp] theorem read_cons : read accept s (e :: as) = (accept s e).bind (read accept · as) := rfl

theorem read_append : read accept s (as ++ bs) = (read accept s as).bind (read accept · bs) :=
  List.foldlM_append

theorem read_append_of_read (h : read accept s as = some s') : read accept s (as ++ bs) = read accept s' bs := by
  rw [read_append, h, Option.bind_some]

/-- What was read before it went on was accepted. -/
theorem isSome_read_of_append (h : (read accept s (as ++ bs)).isSome) : (read accept s as).isSome := by
  rw [read_append] at h
  exact Option.isSome_of_isSome_bind h

/-- The events are accepted exactly under `C`, and `Q` holds of the acceptor then. -/
structure Reads (accept : σ → ε → Option σ) (s : σ) (events : List ε) (C : Prop) (Q : σ → Prop) :
    Prop where
  accepts_iff : (read accept s events).isSome ↔ C
  after : ∀ s', read accept s events = some s' → Q s'

namespace Reads

theorem nil (h : Q s) : Reads accept s [] True Q where
  accepts_iff := by simp
  after := by
    intro s' hs'
    cases hs'
    exact h

theorem cons (he : accept s e = some s') (h : Reads accept s' as C Q) :
    Reads accept s (e :: as) C Q where
  accepts_iff := by
    rw [read_cons, he, Option.bind_some]
    exact h.accepts_iff
  after := by
    rw [read_cons, he, Option.bind_some]
    exact h.after

theorem cons_of_refused (he : accept s e = none) : Reads accept s (e :: as) False Q where
  accepts_iff := by simp [he]
  after := by simp [he]

theorem append (h : Reads accept s as C D) (h' : ∀ s', D s' → Reads accept s' bs C' Q) :
    Reads accept s (as ++ bs) (C ∧ C') Q := by
  cases hread : read accept s as with
  | none =>
    have hC : ¬ C := fun hC => by simpa [hread] using h.accepts_iff.mpr hC
    exact ⟨by simp [read_append, hread, hC], by simp [read_append, hread]⟩
  | some s' =>
    have hC : C := h.accepts_iff.mp (by rw [hread]; rfl)
    have hbs := h' s' (h.after s' hread)
    constructor
    · rw [read_append_of_read hread, hbs.accepts_iff]
      exact (and_iff_right hC).symm
    · rw [read_append_of_read hread]
      exact hbs.after

theorem of_iff (h : Reads accept s as C Q) (hC : C ↔ C') : Reads accept s as C' Q :=
  ⟨h.accepts_iff.trans hC, h.after⟩

theorem congr (h : Reads accept s as C D) (hC : C ↔ C') (hD : ∀ s', C → D s' → Q s') :
    Reads accept s as C' Q where
  accepts_iff := h.accepts_iff.trans hC
  after := by
    intro s' hs'
    have hholds : C := h.accepts_iff.mp (by rw [hs']; rfl)
    exact hD s' hholds (h.after s' hs')

end Reads

end OneApi.Lib.Acceptor
