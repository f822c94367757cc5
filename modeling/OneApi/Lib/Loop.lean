import Mathlib.Tactic.Common
import Mathlib.Order.Lattice

/-!
# Loops that may not end

`loop body` repeats `body` until it returns a result.  It recurses on a fuel, and `none` means
that the fuel ran out; a loop ends (`Ends`) when some fuel is enough.  `body` is itself given the
fuel, so that a loop inside a loop is covered: `none` from the body is a body that did not end.

The rules are the usual ones: an invariant of the rounds for the result (`loop_result`), a measure
that every further round lowers (`finishes_of_measure`), and an invariant under which every round asks
for another one (`not_ends_of_invariant`).

`CaughtUp` is the loop that goes from one due time to the next until none is due.
-/

namespace OneApi.Lib.Loop

variable {σ β : Type*}

/-- What a round of the loop does: go on from a new state, or leave with a result. -/
inductive Next (σ β : Type*)
  | again (s : σ)
  | done (b : β)
  deriving DecidableEq

/-- Repeat `body` until it is done, for at most `fuel` rounds. -/
def loop (body : σ → Option (Next σ β)) : ℕ → σ → Option β
  | 0, _ => none
  | fuel + 1, s =>
    match body s with
    | none => none
    | some (.done b) => some b
    | some (.again s') => loop body fuel s'

/-- Some fuel is enough. -/
def Ends (f : ℕ → Option β) : Prop := ∃ fuel, (f fuel).isSome

/-- Enough fuel gives one result, which has the property. -/
def Finishes (f : ℕ → Option β) (P : β → Prop) : Prop := ∃ b, P b ∧ ∃ enough, ∀ n, enough ≤ n → f n = some b

theorem Finishes.ends {f : ℕ → Option β} {P : β → Prop} (h : Finishes f P) : Ends f :=
  let ⟨b, _, enough, hb⟩ := h
  ⟨enough, Option.isSome_iff_exists.mpr ⟨b, hb enough le_rfl⟩⟩

/-- More fuel does not change a result. -/
def Mono (f : ℕ → Option β) : Prop := ∀ n m b, n ≤ m → f n = some b → f m = some b

section Mono

variable {f : ℕ → Option β} {n m : ℕ}

/-- With more fuel nothing changes, unless the fuel had run out. -/
theorem Mono.none_or_eq (h : Mono f) (hnm : n ≤ m) : f n = none ∨ f m = f n := by
  cases hn : f n with
  | none => exact .inl rfl
  | some b => exact .inr (h n m b hnm hn)

/-- Two fuels that are enough give the same result. -/
theorem Mono.unique (h : Mono f) {a b : β} (hn : f n = some a) (hm : f m = some b) : a = b := by
  have hleft := h n (max n m) a (le_max_left n m) hn
  have hright := h m (max n m) b (le_max_right n m) hm
  exact Option.some.inj (hleft.symm.trans hright)

end Mono

/-- **Result rule.**  What every further round keeps and the last round turns into `Q` makes `Q`
true of the result. -/
theorem loop_result {body : σ → Option (Next σ β)} (J : σ → Prop) (Q : β → Prop)
    (hagain : ∀ s s', J s → body s = some (.again s') → J s')
    (hdone : ∀ s b, J s → body s = some (.done b) → Q b) {fuel : ℕ} {s : σ} {b : β} (hs : J s)
    (h : loop body fuel s = some b) : Q b := by
  induction fuel generalizing s with
  | zero => cases h
  | succ fuel ih =>
    rw [loop] at h
    cases hb : body s with
    | none => rw [hb] at h; cases h
    | some r =>
      rw [hb] at h
      cases r with
      | done b' =>
        cases h
        exact hdone s b hs hb
      | again s' => exact ih (hagain s s' hs hb) h

/-- More rounds do not change the result of a loop. -/
theorem mono_loop (body : σ → Option (Next σ β)) (s : σ) : Mono fun n => loop body n s := by
  intro n m b hnm h
  induction n generalizing m s with
  | zero => cases h
  | succ n ih =>
    obtain ⟨m, rfl⟩ : ∃ m', m = m' + 1 := ⟨m - 1, by omega⟩
    simp only [loop] at h ⊢
    cases hb : body s with
    | none => rw [hb] at h; cases h
    | some r =>
      rw [hb] at h
      cases r with
      | done b' => exact h
      | again s' => exact ih s' m (by omega) h

variable {body : ℕ → σ → Option (Next σ β)}

/-- **Measure rule.**  If the body finishes in every state of `I`, leaves the loop with `Q`, and goes on in `I` with
a lower `μ`, the loop finishes with `Q`. -/
theorem finishes_of_measure (I : σ → Prop) (μ : σ → ℕ) (Q : β → Prop) (hbody : ∀ s, I s → Finishes (fun n => body n s)
      fun r => (∀ s', r = .again s' → I s' ∧ μ s' < μ s) ∧ ∀ b, r = .done b → Q b) {s : σ} (hs : I s) :
    Finishes (fun n => loop (body n) n s) Q := by
  suffices h : ∃ b, Q b ∧ ∃ enough, ∀ n k, enough ≤ n → enough ≤ k → loop (body n) k s = some b by
    obtain ⟨b, hb, enough, hloop⟩ := h
    exact ⟨b, hb, enough, fun n hn => hloop n n hn hn⟩
  -- the induction is on the value of the measure
  generalize hk : μ s = k
  induction k using Nat.strong_induction_on generalizing s with
  | _ k ih =>
    obtain ⟨r, ⟨hagain, hdone⟩, first, hr⟩ := hbody s hs
    cases r with
    | done b =>
      refine ⟨b, hdone b rfl, first + 1, fun n k hn hk => ?_⟩
      obtain ⟨k, rfl⟩ : ∃ k', k = k' + 1 := ⟨k - 1, by omega⟩
      simp only [loop, hr n (by omega)]
    | again s' =>
      obtain ⟨hs', hlt⟩ := hagain s' rfl
      obtain ⟨b, hb, rest, hrest⟩ := ih (μ s') (hk ▸ hlt) hs' rfl
      refine ⟨b, hb, max first rest + 1, fun n k hn hk => ?_⟩
      obtain ⟨k, rfl⟩ : ∃ k', k = k' + 1 := ⟨k - 1, by omega⟩
      simp only [loop, hr n (by omega)]
      exact hrest n k (by omega) (by omega)

/-- **Divergence rule.**  If every round from a state of `I` either does not end or goes on in
`I`, the loop does not end. -/
theorem not_ends_of_invariant (I : σ → Prop)
    (hbody : ∀ n s r, I s → body n s = some r → ∃ s', r = .again s' ∧ I s') {s : σ}
    (hs : I s) : ¬ Ends fun n => loop (body n) n s := by
  rintro ⟨n, hn⟩
  have h : ∀ k s, I s → loop (body n) k s = none := by
    intro k
    induction k with
    | zero => intro s _; rfl
    | succ k ih =>
      intro s hs
      simp only [loop]
      cases hb : body n s with
      | none => rfl
      | some r =>
        obtain ⟨s', rfl, hs'⟩ := hbody n s r hs hb
        exact ih s' hs'
  have hnone : (loop (body n) n s).isSome = false := by rw [h n s hs]; rfl
  exact Bool.false_ne_true (hnone.symm.trans hn)

/-! ## Catching up -/

/-- The time after `b` is due. -/
def Due (f : ℤ → ℤ) (now b : ℤ) : Prop := 0 < f b ∧ f b ≤ now

instance (f : ℤ → ℤ) (now b : ℤ) : Decidable (Due f now b) := inferInstanceAs (Decidable (_ ∧ _))

/-- From `b`, going on while a time is due, one comes to `c`. -/
inductive CaughtUp (f : ℤ → ℤ) (now : ℤ) : ℤ → ℤ → Prop
  | done {b : ℤ} (h : ¬ Due f now b) : CaughtUp f now b b
  | next {b c : ℤ} (h : Due f now b) (hnext : CaughtUp f now (f b) c) : CaughtUp f now b c

section CatchUp

variable {f : ℤ → ℤ} {now now' b c d : ℤ}

theorem Due.mono (h : now ≤ now') (hdue : Due f now b) : Due f now' b :=
  ⟨hdue.1, hdue.2.trans h⟩

theorem CaughtUp.pos (h : CaughtUp f now b c) (hb : 0 < b ∨ Due f now b) : 0 < c := by
  induction h with
  | done hnot => exact hb.resolve_right hnot
  | next hdue _ ih => exact ih (.inl hdue.1)

/-- Stopping on the way makes no difference. -/
theorem CaughtUp.resume (hle : now ≤ now') (h : CaughtUp f now b c) (h' : CaughtUp f now' c d) :
    CaughtUp f now' b d := by
  induction h with
  | done _ => exact h'
  | next hdue _ ih => exact .next (hdue.mono hle) (ih h')

/-- Times that move forward come to an end. -/
theorem exists_caughtUp (hf : ∀ b, 0 < f b → b < f b) (now b : ℤ) : ∃ c, CaughtUp f now b c := by
  generalize hk : (now - b).toNat = k
  induction k using Nat.strong_induction_on generalizing b with
  | _ k ih =>
    by_cases hdue : Due f now b
    · have hlt := hf b hdue.1
      have hle := hdue.2
      obtain ⟨c, hc⟩ := ih (now - f b).toNat (by omega) (f b) rfl
      exact ⟨c, .next hdue hc⟩
    · exact ⟨b, .done hdue⟩

end CatchUp

end OneApi.Lib.Loop
