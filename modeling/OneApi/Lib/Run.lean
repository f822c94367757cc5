import Mathlib.Algebra.Group.Basic
import Mathlib.Data.List.Basic

/-!
# Runs of a deterministic step function

A component is a state, a set of actions and a step function; everything the environment decides
(which write fails, what time it is, which process moves next) is carried by the action.  A run
is then a list of actions, and a property of every reachable state is a property of the state
after every run.

`Respects` is the side condition of a conditional result: every action of the run is taken in a
state where a given condition holds.  `run_preserves` and `run_preserves_of_respects` are the
inductions over runs that safety results are assembled from, together with one step lemma;
`run_balance` is the one for quantities that a run adds to and takes from.
-/

namespace OneApi.Lib.Run

variable {σ α : Type*}

/-- The state after a list of actions. -/
def run (step : σ → α → σ) (s : σ) (acts : List α) : σ := acts.foldl step s

@[simp] theorem run_nil (step : σ → α → σ) (s : σ) : run step s [] = s := rfl

@[simp] theorem run_cons (step : σ → α → σ) (s : σ) (a : α) (acts : List α) :
    run step s (a :: acts) = run step (step s a) acts := rfl

theorem run_append (step : σ → α → σ) (s : σ) (as bs : List α) :
    run step s (as ++ bs) = run step (run step s as) bs := by
  simp only [run, List.foldl_append]

/-- A loop whose steps all change nothing. -/
theorem foldl_eq_self {acts : List α} {step : σ → α → σ} (h : ∀ s, ∀ a ∈ acts, step s a = s) (s : σ) :
    acts.foldl step s = s := by
  induction acts with
  | nil => rfl
  | cons a acts ih =>
    rw [List.foldl_cons, h s a List.mem_cons_self]
    exact ih fun s b hb => h s b (List.mem_cons_of_mem a hb)

/-- The next state a run passes through is one step further, or the same once the run is over. -/
theorem run_take_succ (step : σ → α → σ) (s : σ) (acts : List α) (n : ℕ) :
    run step s (acts.take (n + 1)) = run step s (acts.take n) ∨
      ∃ a, run step s (acts.take (n + 1)) = step (run step s (acts.take n)) a := by
  rw [List.take_add_one, run_append]
  cases acts[n]? with
  | none => exact .inl rfl
  | some a => exact .inr ⟨a, rfl⟩

/-- A later state of a run is reached from an earlier one. -/
theorem run_take_of_le (step : σ → α → σ) (s : σ) (acts : List α) {n m : ℕ} (h : n ≤ m) :
    ∃ rest, run step s (acts.take m) = run step (run step s (acts.take n)) rest := by
  refine ⟨(acts.take m).drop n, ?_⟩
  have htake : (acts.take m).take n = acts.take n := by
    rw [List.take_take, Nat.min_eq_left h]
  rw [← run_append, ← htake, List.take_append_drop]

/-- Every action of the run is taken in a state in which `C` allows it. -/
def Respects (step : σ → α → σ) (C : σ → α → Prop) : σ → List α → Prop
  | _, [] => True
  | s, a :: acts => C s a ∧ Respects step C (step s a) acts

instance Respects.decidable (step : σ → α → σ) (C : σ → α → Prop)
    [∀ s a, Decidable (C s a)] : ∀ s acts, Decidable (Respects step C s acts)
  | _, [] => isTrue trivial
  | s, a :: acts =>
    have := Respects.decidable step C (step s a) acts
    inferInstanceAs (Decidable (C s a ∧ Respects step C (step s a) acts))

variable {step : σ → α → σ} {C : σ → α → Prop} {s : σ}

theorem respects_append {as bs : List α} :
    Respects step C s (as ++ bs) ↔ Respects step C s as ∧ Respects step C (run step s as) bs := by
  induction as generalizing s with
  | nil => simp [Respects]
  | cons a as ih =>
    rw [List.cons_append, run_cons]
    exact (and_congr_right fun _ => ih).trans and_assoc.symm

variable {acts : List α}

/-- A condition on the actions alone. -/
theorem respects_of_forall {P : α → Prop} (h : ∀ a ∈ acts, P a) (s : σ) : Respects step (fun _ a => P a) s acts := by
  induction acts generalizing s with
  | nil => trivial
  | cons a acts ih =>
    exact ⟨h a List.mem_cons_self, ih (fun b hb => h b (List.mem_cons_of_mem a hb)) _⟩

theorem Respects.imp {D : σ → α → Prop} (h : ∀ s a, C s a → D s a)
    (hC : Respects step C s acts) : Respects step D s acts := by
  induction acts generalizing s with
  | nil => trivial
  | cons a acts ih => exact ⟨h s a hC.1, ih hC.2⟩

/-- A condition on the actions alone can be joined to the one on the states. -/
theorem Respects.and_forall {P : α → Prop} (h : Respects step C s acts) (hP : ∀ a ∈ acts, P a) :
    Respects step (fun s a => C s a ∧ P a) s acts := by
  induction acts generalizing s with
  | nil => trivial
  | cons a acts ih =>
    exact ⟨⟨h.1, hP a List.mem_cons_self⟩, ih h.2 fun b hb => hP b (List.mem_cons_of_mem a hb)⟩

variable {I : σ → Prop}

/-- **Conditional invariant rule.**  What every allowed step keeps, every allowed run keeps. -/
theorem run_preserves_of_respects (hstep : ∀ s a, C s a → I s → I (step s a))
    (hC : Respects step C s acts) (h : I s) : I (run step s acts) := by
  induction acts generalizing s with
  | nil => exact h
  | cons a acts ih => exact ih hC.2 (hstep s a hC.1 h)

/-- **Invariant rule.**  What every step keeps, every run keeps. -/
theorem run_preserves (hstep : ∀ s a, I s → I (step s a)) (acts : List α) (h : I s) : I (run step s acts) := by
  induction acts generalizing s with
  | nil => exact h
  | cons a acts ih => exact ih (hstep s a h)

/-- **Exact invariant rule.**  When a step keeps the property exactly if it is allowed, every state a
run passes through has the property exactly if the run is allowed. -/
theorem forall_take_iff_respects (hstep : ∀ s a, I s → (I (step s a) ↔ C s a)) (h : I s) :
    (∀ n, I (run step s (acts.take n))) ↔ Respects step C s acts := by
  induction acts generalizing s with
  | nil =>
    simp only [List.take_nil, run_nil]
    exact ⟨fun _ => trivial, fun _ _ => h⟩
  | cons a acts ih =>
    constructor
    · intro hall
      have hnext : I (step s a) := hall 1
      exact ⟨(hstep s a h).mp hnext, (ih hnext).mp fun n => hall (n + 1)⟩
    · intro hC n
      have hnext : I (step s a) := (hstep s a h).mpr hC.1
      cases n with
      | zero => exact h
      | succ n => exact (ih hnext).mpr hC.2 n

/-- **Exact rule for what is lost for good.**  Under an invariant `J` of all steps: a property `P` that
no step brings back, an invariant `I` that implies it and is kept by allowed steps, and steps that lose
`P` when they are not allowed.  Then `P` holds after a run exactly if the run is allowed. -/
theorem run_iff_respects_of_invariant {J P : σ → Prop} (hJ : ∀ s a, J s → J (step s a)) (hP : ∀ s, I s → P s)
    (hlost : ∀ s a, J s → P (step s a) → P s) (hkeep : ∀ s a, J s → I s → C s a → I (step s a))
    (hneed : ∀ s a, J s → I s → P (step s a) → C s a) (hs : J s) (h : I s) :
    P (run step s acts) ↔ Respects step C s acts := by
  have hback : ∀ (acts : List α) (s : σ), J s → P (run step s acts) → P s := by
    intro acts
    induction acts with
    | nil => exact fun _ _ => id
    | cons a acts ih => exact fun s hs hrun => hlost s a hs (ih (step s a) (hJ s a hs) hrun)
  constructor
  · intro hrun
    induction acts generalizing s with
    | nil => trivial
    | cons a acts ih =>
      have hC : C s a := hneed s a hs h (hback acts (step s a) (hJ s a hs) hrun)
      exact ⟨hC, ih (hJ s a hs) (hkeep s a hs h hC) hrun⟩
  · intro hC
    have hstep : ∀ s a, C s a → J s ∧ I s → J (step s a) ∧ I (step s a) :=
      fun s a hC hI => ⟨hJ s a hI.1, hkeep s a hI.1 hI.2 hC⟩
    have hboth : J (run step s acts) ∧ I (run step s acts) :=
      run_preserves_of_respects (I := fun s => J s ∧ I s) hstep hC ⟨hs, h⟩
    exact hP _ hboth.2

/-- The same without an invariant of all steps. -/
theorem run_iff_respects {P : σ → Prop} (hP : ∀ s, I s → P s) (hlost : ∀ s a, P (step s a) → P s)
    (hkeep : ∀ s a, I s → C s a → I (step s a)) (hneed : ∀ s a, I s → P (step s a) → C s a) (h : I s) :
    P (run step s acts) ↔ Respects step C s acts :=
  run_iff_respects_of_invariant (J := fun _ => True) (fun _ _ => id) hP (fun s a _ => hlost s a)
    (fun s a _ => hkeep s a) (fun s a _ => hneed s a) trivial h

/-- **Invisible steps.**  A relation to the run without the steps that are left out, when those that stay
take both sides along and those that are left out move only one. -/
theorem run_filter_of_respects {R : σ → σ → Prop}
    {keep : α → Bool} (hkeep : ∀ s t a, C s a → keep a = true → R s t → R (step s a) (step t a))
    (hdrop : ∀ s t a, C s a → keep a = false → R s t → R (step s a) t) {t : σ}
    (hC : Respects step C s acts) (h : R s t) : R (run step s acts) (run step t (acts.filter keep)) := by
  induction acts generalizing s t with
  | nil => exact h
  | cons a acts ih =>
    cases hk : keep a with
    | true =>
      rw [List.filter_cons_of_pos hk]
      exact ih hC.2 (hkeep s t a hC.1 hk h)
    | false =>
      rw [List.filter_cons_of_neg (by simp [hk])]
      exact ih hC.2 (hdrop s t a hC.1 hk h)

section Map

variable {τ : Type*} {step : σ → α → σ} {step' : τ → α → τ} {view : σ → τ}

/-- A view of the state that moves by itself. -/
theorem run_map (hview : ∀ s a, view (step s a) = step' (view s) a) :
    view (run step s acts) = run step' (view s) acts := by
  induction acts generalizing s with
  | nil => rfl
  | cons a acts ih => rw [run_cons, run_cons, ih, hview]

theorem respects_map (hview : ∀ s a, view (step s a) = step' (view s) a) {C : τ → α → Prop} (s : σ)
    (acts : List α) : Respects step (fun s a => C (view s) a) s acts ↔ Respects step' C (view s) acts := by
  induction acts generalizing s with
  | nil => exact Iff.rfl
  | cons a acts ih =>
    refine and_congr_right fun _ => ?_
    rw [← hview]
    exact ih (step s a)

end Map

/-- What an invariant guarantees need not be assumed of a run. -/
theorem respects_of_invariant {step : σ → α → σ} {C : σ → α → Prop} {I : σ → Prop}
    (hstep : ∀ s a, I s → I (step s a)) (hC : ∀ s a, I s → C s a) {s : σ} (acts : List α)
    (h : I s) : Respects step C s acts := by
  induction acts generalizing s with
  | nil => trivial
  | cons a acts ih => exact ⟨hC s a h, ih (hstep s a h)⟩

section Balance

variable {M : Type*} [AddCommMonoid M]

/-- What the steps of a run contribute, summed. -/
def along (step : σ → α → σ) (f : σ → α → M) : σ → List α → M
  | _, [] => 0
  | s, a :: acts => f s a + along step f (step s a) acts

theorem along_append (f : σ → α → M) (as bs : List α) :
    along step f s (as ++ bs) = along step f s as + along step f (run step s as) bs := by
  induction as generalizing s with
  | nil => exact (zero_add _).symm
  | cons a as ih =>
    rw [List.cons_append, along, along, ih, run_cons, add_assoc]

/-- What depends on the actions alone. -/
theorem along_map (f : α → M) : along step (fun _ a => f a) s acts = (acts.map f).sum := by
  induction acts generalizing s with
  | nil => rfl
  | cons a acts ih => rw [along, ih, List.map_cons, List.sum_cons]

/-- Steps that contribute nothing. -/
theorem along_eq_zero {step : σ → α → σ} {f : σ → α → M} {acts : List α}
    (h : ∀ a ∈ acts, ∀ s, f s a = 0) (s : σ) : along step f s acts = 0 := by
  induction acts generalizing s with
  | nil => rfl
  | cons a acts ih =>
    rw [along, h a List.mem_cons_self, zero_add]
    exact ih (fun b hb => h b (List.mem_cons_of_mem a hb)) _

/-- **Balance rule.**  A quantity that every step changes by what it gains and loses changes over a
run by what the run gains and loses. -/
theorem run_balance {m : σ → M} {gain loss : σ → α → M} (hI : ∀ s a, I s → I (step s a))
    (hstep : ∀ s a, I s → m (step s a) + loss s a = m s + gain s a) (h : I s) :
    m (run step s acts) + along step loss s acts = m s + along step gain s acts := by
  induction acts generalizing s with
  | nil => rfl
  | cons a acts ih =>
    rw [run_cons, along, along, add_left_comm, ih (hI s a h), ← add_assoc, ← add_assoc,
      add_comm (loss s a), hstep s a h]

end Balance

end OneApi.Lib.Run
