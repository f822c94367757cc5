import OneApi.Lib.Acceptor

/-!
# Steps that emit events

A converter takes a step for each thing it is given and emits a list of events with each step.  Steps
done one after the other emit their events one after the other (`andThen`, `forEach`).

`Triple I f J` says what the step keeps between the component and an acceptor that reads its events: if
the two were related by `I`, the events of the step are accepted, and the two are related by `J` after
it.  The rules are the ones of a loop: `Triple.forEach` for an invariant of all steps, and
`Triple.forEach_rest` for one that depends on what is still to come.
-/

namespace OneApi.Lib.Emit

open Acceptor

variable {σ ρ ε α : Type*}

/-- A step from one state to the next, with the events it emits. -/
abbrev Step (σ ε : Type*) := σ → σ × List ε

/-- One step after the other. -/
def andThen (f g : Step σ ε) : Step σ ε := fun s => ((g (f s).1).1, (f s).2 ++ (g (f s).1).2)

/-- A step for every element of a list. -/
def forEach (f : α → Step σ ε) : List α → Step σ ε
  | [] => fun s => (s, [])
  | a :: as => andThen (f a) (forEach f as)

/-- From states related by `I` the acceptor reads what the step emits, to states related by `J`. -/
def Triple (accept : ρ → ε → Option ρ) (I : σ → ρ → Prop) (f : Step σ ε) (J : σ → ρ → Prop) : Prop :=
  ∀ s r, I s r → ∃ r', read accept r (f s).2 = some r' ∧ J (f s).1 r'

namespace Triple

variable {accept : ρ → ε → Option ρ} {I J K : σ → ρ → Prop} {f g : Step σ ε}

theorem of_silent {update : σ → σ} (h : ∀ s r, I s r → J (update s) r) :
    Triple accept I (fun s => (update s, [])) J := by
  intro s r hI
  exact ⟨r, rfl, h s r hI⟩

theorem andThen (hf : Triple accept I f J) (hg : Triple accept J g K) : Triple accept I (andThen f g) K := by
  intro s r hI
  obtain ⟨r', hread, hJ⟩ := hf s r hI
  obtain ⟨r'', hread', hK⟩ := hg _ r' hJ
  exact ⟨r'', (read_append_of_read hread).trans hread', hK⟩

theorem weaken (hf : Triple accept I f J) {I' J' : σ → ρ → Prop} (hI : ∀ s r, I' s r → I s r)
    (hJ : ∀ s r, J s r → J' s r) : Triple accept I' f J' := by
  intro s r h
  obtain ⟨r', hread, h'⟩ := hf s r (hI s r h)
  exact ⟨r', hread, hJ _ r' h'⟩

/-- What a triple says of the component alone: some reader is related to it afterwards. -/
theorem reach (hf : Triple accept I f J) {s : σ} (hI : ∃ r, I s r) : ∃ r, J (f s).1 r := by
  obtain ⟨r, hr⟩ := hI
  obtain ⟨r', _, hJ⟩ := hf s r hr
  exact ⟨r', hJ⟩

/-- **Loop rule.**  What every step keeps, the loop keeps. -/
theorem forEach {f : α → Step σ ε} (h : ∀ a, Triple accept I (f a) I) (as : List α) :
    Triple accept I (forEach f as) I := by
  induction as with
  | nil => exact of_silent fun _ _ => id
  | cons a as ih => exact (h a).andThen ih

/-- **Loop rule with a rest.**  The invariant may speak of the elements that are still to come. -/
theorem forEach_rest {I : List α → σ → ρ → Prop} {f : α → Step σ ε}
    (h : ∀ a rest, Triple accept (I (a :: rest)) (f a) (I rest)) (as rest : List α) :
    Triple accept (I (as ++ rest)) (Emit.forEach f as) (I rest) := by
  induction as with
  | nil => exact of_silent fun _ _ => id
  | cons a as ih => exact (h a (as ++ rest)).andThen ih

end Triple

end OneApi.Lib.Emit
