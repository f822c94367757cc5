import OneApi.Lib.Procs

/-!
# Redemption codes

`Redeem` reads a code, moves its status from enabled to used by a compare-and-swap and credits the user, in one
transaction.  On SQLite the read takes no lock, so any number of calls may read the code before one of them commits;
from its swap on a transaction has the row to itself, and the rest of it is one step.  In between others write to the
row what they like: `UpdateRedemption` saves a copy that it has read before, with its status.
-/

namespace OneApi.Payment.Redeem

open OneApi.Lib.Run OneApi.Lib.Procs Function

inductive Status
  | enabled
  | disabled
  | used
  deriving Repr, DecidableEq

structure Redemption where
  status : Status
  quota : ℤ
  expiredTime : ℤ
  redeemedTime : ℤ
  usedUserId : ℤ

def enabled (code : Option Redemption) : ℤ := if code.any (·.status = .enabled) then 1 else 0

/-- The row of the code, if there is one, the quotas of the users, and how often others have enabled the code, less
how often they have disabled it. -/
structure Shared where
  code : Option Redemption
  quota : ℤ → Option ℤ
  raised : ℤ := 0

inductive Phase
  | start
  | loaded (redemption : Redemption)
  | redeemed (quota : ℤ)
  | failed (message : String)

structure Call where
  userId : ℤ
  phase : Phase := .start

/-- A step of a call, which the database may refuse, or what someone else writes. -/
inductive Action
  | redeem (now : ℤ) (ok : Bool)
  | write (code : Option Redemption)

/-- The lookup and its checks.  All errors of the transaction are `ErrRedeemFailed` to the caller. -/
def lookup (userId now : ℤ) (code : Option Redemption) : Phase :=
  if userId = 0 then .failed "无效的 user id"
  else
    match code with
    | none => .failed "redeem.failed"
    | some redemption =>
      if redemption.status ≠ .enabled ∨ redemption.expiredTime ≠ 0 ∧ redemption.expiredTime < now then
        .failed "redeem.failed"
      else .loaded redemption

/-- `Redeem`, a statement or, from the swap on, the rest of it. -/
def act (s : Shared) (p : Call) : Action → Shared × Call
  | .write code => ({ s with code, raised := s.raised + (enabled code - enabled s.code) }, p)
  | .redeem now ok =>
    match p.phase with
    | .start => (s, { p with phase := lookup p.userId now (if ok then s.code else none) })
    | .loaded redemption =>
      match if ok then s.code.filter (·.status = .enabled) else none with
      | none => (s, { p with phase := .failed "redeem.failed" })
      | some code =>
        ({ s with
            code := some { code with status := .used, redeemedTime := now, usedUserId := p.userId }
            quota := update s.quota p.userId ((s.quota p.userId).map (· + redemption.quota)) },
          { p with phase := .redeemed redemption.quota })
    | _ => (s, p)

/-- What a call has redeemed. -/
def Phase.redeemed? : Phase → Option ℤ
  | .redeemed quota => some quota
  | _ => none

def redeemed (p : Call) : ℤ := if p.phase.redeemed?.isSome then 1 else 0

def credited (userId : ℤ) (p : Call) : ℤ := if p.userId = userId then p.phase.redeemed?.getD 0 else 0

variable {s : Shared} {a : Action} {userId : ℤ}

@[simp] theorem redeemed?_lookup (now : ℤ) (code : Option Redemption) : (lookup userId now code).redeemed? = none := by
  unfold lookup
  split
  · rfl
  · split
    · rfl
    · split <;> rfl

theorem act_enabled (p : Call) : enabled (act s p a).1.code + redeemed (act s p a).2 - (act s p a).1.raised =
    enabled s.code + redeemed p - s.raised := by
  obtain ⟨user, phase⟩ := p
  cases a with
  | write code =>
    simp only [act]
    omega
  | redeem now ok =>
    cases phase with
    | start =>
      simp only [act, redeemed, redeemed?_lookup]
      rfl
    | loaded redemption =>
      simp only [act]
      split
      next => rfl
      next code hswap =>
        -- the swap finds the code enabled and leaves it used
        have hcode : s.code.any (·.status = .enabled) = true := by
          rw [Option.ite_none_right_eq_some, Option.filter_eq_some_iff] at hswap
          rw [hswap.2.1]
          exact hswap.2.2
        simp [enabled, hcode, redeemed, Phase.redeemed?]
    | redeemed quota | failed message => rfl

theorem act_quota (p : Call) : (act s p a).1.quota userId =
    (s.quota userId).map (· + (credited userId (act s p a).2 - credited userId p)) := by
  obtain ⟨user, phase⟩ := p
  cases a with
  | write code => simp [act]
  | redeem now ok =>
    cases phase with
    | start =>
      simp only [act, credited, redeemed?_lookup]
      simp [Phase.redeemed?]
    | loaded redemption =>
      simp only [act]
      split
      next => simp [credited, Phase.redeemed?]
      next =>
        by_cases huser : user = userId
        · subst huser
          simp [credited, Phase.redeemed?]
        · simp [credited, huser, update_of_ne (Ne.symm huser)]
    | redeemed quota | failed message => simp [act]

/-- Only what others write enables the code again. -/
theorem act_raised (p : Call) (hwrite : ∀ code, a ≠ .write code) : (act s p a).1.raised = s.raised := by
  cases a with
  | write code => exact absurd rfl (hwrite code)
  | redeem now ok =>
    simp only [act]
    split
    · rfl
    · split <;> rfl
    · rfl

theorem enabled_nonneg (code : Option Redemption) : 0 ≤ enabled code := by
  unfold enabled
  split <;> decide

theorem enabled_le_one (code : Option Redemption) : enabled code ≤ 1 := by
  unfold enabled
  split <;> decide

section Runs

variable {ι : Type*} [Fintype ι] {code : Option Redemption} {quota : ℤ → Option ℤ} {s : System ι Shared Call}

/-- The code was redeemed once for each time it was enabled, and users have what their calls have redeemed. -/
structure Balanced (code : Option Redemption) (quota : ℤ → Option ℤ) (s : System ι Shared Call) : Prop where
  redeemed : enabled s.shared.code + total redeemed s = enabled code + s.shared.raised
  credited : ∀ userId, s.shared.quota userId = (quota userId).map (· + total (credited userId) s)

theorem Balanced.initial (code : Option Redemption) (quota : ℤ → Option ℤ) (users : ι → ℤ) :
    Balanced code quota ⟨{ code, quota }, fun i => { userId := users i }⟩ where
  redeemed := by
    have hnone : total Redeem.redeemed (⟨{ code, quota }, fun i => { userId := users i }⟩ : System ι Shared Call) = 0 :=
      Finset.sum_eq_zero fun _ _ => rfl
    rw [hnone]
  credited userId := by simp [total, Redeem.credited, Phase.redeemed?]

variable [DecidableEq ι]

theorem Balanced.step (h : Balanced code quota s) (a : ι × Action) : Balanced code quota (move act s a) where
  redeemed := by
    have hact := act_enabled (s := s.shared) (a := a.2) (s.proc a.1)
    have hbefore := h.redeemed
    rw [total_move, move_shared]
    omega
  credited userId := by
    rw [total_move, move_shared, act_quota, h.credited, Option.map_map]
    refine congrArg (Option.map · (quota userId)) (funext fun q => ?_)
    rw [comp, add_assoc]

/-- **A code is redeemed once for each time it is enabled**, whatever the order of the steps of any number of calls
and of what others write. -/
theorem redeemed_once_enabled (users : ι → ℤ) (acts : List (ι × Action)) :
    Balanced code quota (run (move act) ⟨{ code, quota }, fun i => { userId := users i }⟩ acts) :=
  run_preserves (fun _ a h => h.step a) acts (.initial code quota users)

/-- **Without a write of others at most one call redeems the code.** -/
theorem redeemed_at_most_once (users : ι → ℤ) (acts : List (ι × Action))
    (hwrite : ∀ a ∈ acts, ∀ written, a.2 ≠ .write written) :
    total redeemed (run (move act) ⟨{ code, quota }, fun i => { userId := users i }⟩ acts) ≤ 1 := by
  obtain ⟨hbalanced, hraised⟩ := run_preserves_of_respects
    (I := fun s : System ι Shared Call => Balanced code quota s ∧ s.shared.raised = 0)
    (fun s a ha h => ⟨h.1.step a, (act_raised (s.proc a.1) ha).trans h.2⟩)
    (respects_of_forall hwrite _) ⟨.initial code quota users, rfl⟩
  have hredeemed := hbalanced.redeemed
  have hbefore := enabled_le_one code
  have hafter := enabled_nonneg (run (move act) ⟨{ code, quota }, fun i => { userId := users i }⟩ acts).shared.code
  omega

/-- A copy that is saved after the code was redeemed enables it again. -/
example : (run (move act) ⟨{ code := some ⟨.enabled, 5, 0, 0, 0⟩, quota := fun _ => some 0 }, fun _ => { userId := 1 }⟩
    [(Two.first, .redeem 0 true), (.first, .redeem 0 true), (.first, .write (some ⟨.enabled, 5, 0, 0, 0⟩)),
      (.second, .redeem 1 true), (.second, .redeem 1 true)]).shared.quota 1 = some 10 := by decide

end Runs

end OneApi.Payment.Redeem
