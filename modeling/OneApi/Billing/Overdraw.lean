import OneApi.Billing.Session
import OneApi.Lib.Procs
import Mathlib.Algebra.Order.BigOperators.Group.Finset

/-!
# Sessions that open at the same time

`NewBillingSession` reads a balance, compares it with the quota and lowers it in a statement of its
own that looks at nothing.  Here any number of sessions of one user and one limited token do so
together; every read and every update of a balance is one step, and what the database makes of a
statement comes with the step.  A session alone is `tryWallet` (`tryWallet_steps`) or
`trySubscription` (`trySubscription_steps`).

What the updates take from a balance is always what the balance has lost.  So the sessions are
granted no more than was there as long as each update is executed while the check that came before
it still holds (`granted_within_balances`), and not otherwise (`granted_beyond_balances`).
-/

namespace OneApi.Billing.Overdraw

open OneApi.Lib.Run OneApi.Lib.Procs OneApi.Subscription.PreConsume OneApi.Billing.Session
open OneApi.Billing.Session.BillingSession

/-! ## A session, statement by statement -/

/-- The balances the sessions share: what remains of the token, and the quota of the user. -/
structure Balances where
  remainQuota : ℤ
  userQuota : ℤ
  deriving Repr, DecidableEq

inductive Funding
  | wallet
  | subscription
  deriving Repr, DecidableEq

/-- What a session is about to do. -/
inductive Phase
  | start
  | userRead
  | tokenRead (f : Funding)
  | tokenUpdate (f : Funding)
  | fundingUpdate (f : Funding)
  | rollback (insufficient : Bool)
  | granted (f : Funding)
  | refused
  deriving Repr, DecidableEq

/-- A session: its quota, the funding sources it may try, what it is about to do, its counter
`tokenConsumed`, and what its updates have taken from each balance so far. -/
structure Proc where
  quota : ℤ
  isPlayground : Bool
  tries : List Funding
  phase : Phase := .start
  tokenConsumed : ℤ := 0
  tokenTaken : ℤ := 0
  walletTaken : ℤ := 0
  deriving Repr, DecidableEq

/-- What the statements of a session meet: whether the user and the token can be read, whether the
updates succeed (for a subscription, whether it can be charged), whether a subscription lacks quota,
and whether the next funding source may be tried then. -/
structure Action where
  userReadOk : Bool := true
  tokenReadOk : Bool := true
  tokenOk : Bool := true
  fundingOk : Bool := true
  rollbackOk : Bool := true
  insufficient : Bool := false
  fallback : Bool := false
  deriving Repr, DecidableEq

namespace Proc

/-- What a session pre-consumes from a funding source. -/
def amount (p : Proc) : Funding → ℤ
  | .wallet => p.quota
  | .subscription => subConsume p.quota

/-- The beginning of `preConsume`: the token comes first, unless there is nothing to pre-consume or
the request comes from the playground. -/
def enter (p : Proc) (f : Funding) : Proc :=
  if p.amount f ≤ 0 then { p with phase := .fundingUpdate f }
  else if p.isPlayground then { p with phase := .fundingUpdate f, tokenConsumed := p.amount f }
  else { p with phase := .tokenRead f }

/-- Try the next funding source, with a new session object. -/
def next (p : Proc) : Proc :=
  match p.tries with
  | [] => { p with phase := .refused }
  | .wallet :: tries => { p with tries, phase := .userRead, tokenConsumed := 0 }
  | .subscription :: tries => { p with tries, tokenConsumed := 0 }.enter .subscription

/-- A funding source that lacks quota is followed by the next one when that is allowed. -/
def giveUp (p : Proc) (insufficient fallback : Bool) : Proc :=
  if insufficient ∧ fallback then p.next else { p with phase := .refused }

/-- The error path of `preConsume`: the token is to be given back when it was charged. -/
def fail (p : Proc) (insufficient fallback : Bool) : Proc :=
  if 0 < p.tokenConsumed ∧ ¬ p.isPlayground then { p with phase := .rollback insufficient }
  else p.giveUp insufficient fallback

end Proc

/-- One statement. -/
def act (b : Balances) (p : Proc) (a : Action) : Balances × Proc :=
  match p.phase with
  | .start => (b, if p.quota < 0 then { p with phase := .refused } else p.next)
  | .userRead =>
    if ¬ a.userReadOk then (b, { p with phase := .refused })
    else if b.userQuota ≤ 0 ∨ b.userQuota - p.quota < 0 then (b, p.giveUp true a.fallback)
    else (b, p.enter .wallet)
  | .tokenRead f =>
    if ¬ a.tokenReadOk ∨ b.remainQuota < p.amount f then (b, { p with phase := .refused })
    else (b, { p with phase := .tokenUpdate f })
  | .tokenUpdate f =>
    if a.tokenOk then
      ({ b with remainQuota := b.remainQuota - p.amount f },
        { p with
          phase := .fundingUpdate f
          tokenConsumed := p.amount f
          tokenTaken := p.tokenTaken + p.amount f })
    else (b, { p with phase := .refused })
  | .fundingUpdate .wallet =>
    if p.quota ≤ 0 then (b, { p with phase := .granted .wallet })
    else if a.fundingOk then
      ({ b with userQuota := b.userQuota - p.quota },
        { p with phase := .granted .wallet, walletTaken := p.walletTaken + p.quota })
    else (b, p.fail false a.fallback)
  | .fundingUpdate .subscription =>
    if a.fundingOk then (b, { p with phase := .granted .subscription })
    else (b, p.fail a.insufficient a.fallback)
  | .rollback insufficient =>
    if a.rollbackOk then
      ({ b with remainQuota := b.remainQuota + p.tokenConsumed },
        { p with tokenTaken := p.tokenTaken - p.tokenConsumed, tokenConsumed := 0 }.giveUp insufficient a.fallback)
    else (b, { p with tokenConsumed := 0 }.giveUp insufficient a.fallback)
  | .granted _ => (b, p)
  | .refused => (b, p)

/-- What is granted from the token: the pre-consumed quota of a session outside the playground. -/
def grantedToken (p : Proc) : ℤ :=
  match p.phase with
  | .granted f => if p.isPlayground then 0 else p.amount f
  | _ => 0

/-- What is granted from the wallet. -/
def grantedWallet (p : Proc) : ℤ :=
  match p.phase with
  | .granted .wallet => p.quota
  | _ => 0

/-- **The check still holds at the update**: a balance is lowered only while it covers the amount. -/
def stillCovered (b : Balances) (p : Proc) (a : Action) : Prop :=
  match p.phase with
  | .tokenUpdate f => a.tokenOk = true → p.amount f ≤ b.remainQuota
  | .fundingUpdate .wallet => a.fundingOk = true → 0 < p.quota → p.quota ≤ b.userQuota
  | _ => True

instance (b : Balances) (p : Proc) (a : Action) : Decidable (stillCovered b p a) := by
  unfold stillCovered
  split <;> infer_instance

/-! ## One statement -/

/-- What the updates of a session have taken covers what it is granted, and what it may give back. -/
structure Sound (p : Proc) : Prop where
  token_nonneg : 0 ≤ p.tokenTaken
  wallet_nonneg : 0 ≤ p.walletTaken
  consumed : p.isPlayground = false → 0 ≤ p.tokenConsumed ∧ p.tokenConsumed ≤ p.tokenTaken
  paid : match p.phase with
    | .tokenRead f => 0 < p.amount f
    | .tokenUpdate f => 0 < p.amount f
    | .fundingUpdate f => p.isPlayground = false → p.amount f ≤ p.tokenTaken
    | .rollback _ => p.isPlayground = false
    | .granted f => (p.isPlayground = false → p.amount f ≤ p.tokenTaken) ∧
        (f = .wallet → p.quota ≤ p.walletTaken)
    | _ => True

/-- What one statement does: the balances lose what the session takes, and they rise or stay
covered. -/
structure Effect (b : Balances) (p : Proc) (r : Balances × Proc) : Prop where
  sound : Sound r.2
  token_eq : r.1.remainQuota + r.2.tokenTaken = b.remainQuota + p.tokenTaken
  wallet_eq : r.1.userQuota + r.2.walletTaken = b.userQuota + p.walletTaken
  token_floor : b.remainQuota ≤ r.1.remainQuota ∨ 0 ≤ r.1.remainQuota
  wallet_floor : b.userQuota ≤ r.1.userQuota ∨ 0 ≤ r.1.userQuota

section Statement

variable {b : Balances} {p : Proc}

/-- A statement that only moves the session on. -/
theorem effect_of_same {p' : Proc} (hsound : Sound p')
    (htaken : p'.tokenTaken = p.tokenTaken ∧ p'.walletTaken = p.walletTaken) : Effect b p (b, p') := by
  refine ⟨hsound, ?_, ?_, .inl le_rfl, .inl le_rfl⟩
  · rw [htaken.1]
  · rw [htaken.2]

theorem effect_refuse (h : Sound p) : Effect b p (b, { p with phase := .refused }) :=
  effect_of_same ⟨h.token_nonneg, h.wallet_nonneg, h.consumed, trivial⟩ ⟨rfl, rfl⟩

theorem effect_enter (h : Sound p) (f : Funding) : Effect b p (b, p.enter f) := by
  have htaken := h.token_nonneg
  rw [Proc.enter]
  split
  · rename_i hnone
    exact effect_of_same
      ⟨h.token_nonneg, h.wallet_nonneg, h.consumed, fun _ => le_trans hnone htaken⟩ ⟨rfl, rfl⟩
  · rename_i hsome
    split
    · rename_i hplay
      have hfalse : p.isPlayground = false → False := fun hnot => by
        rw [hplay] at hnot
        cases hnot
      exact effect_of_same ⟨h.token_nonneg, h.wallet_nonneg, fun hnot => (hfalse hnot).elim,
        fun hnot => (hfalse hnot).elim⟩ ⟨rfl, rfl⟩
    · exact effect_of_same ⟨h.token_nonneg, h.wallet_nonneg, h.consumed, not_le.mp hsome⟩ ⟨rfl, rfl⟩

theorem effect_next (h : Sound p) : Effect b p (b, p.next) := by
  rw [Proc.next]
  split
  · exact effect_refuse h
  · exact effect_of_same
      ⟨h.token_nonneg, h.wallet_nonneg, fun _ => ⟨le_rfl, h.token_nonneg⟩, trivial⟩ ⟨rfl, rfl⟩
  · rename_i tries _
    have hsound : Sound { p with tries, tokenConsumed := 0 } :=
      ⟨h.token_nonneg, h.wallet_nonneg, fun _ => ⟨le_rfl, h.token_nonneg⟩, h.paid⟩
    exact { effect_enter hsound .subscription with }

theorem effect_giveUp (h : Sound p) (insufficient fallback : Bool) :
    Effect b p (b, p.giveUp insufficient fallback) := by
  rw [Proc.giveUp]
  split
  · exact effect_next h
  · exact effect_refuse h

theorem effect_fail (h : Sound p) (insufficient fallback : Bool) : Effect b p (b, p.fail insufficient fallback) := by
  rw [Proc.fail]
  split
  · rename_i hcharged
    exact effect_of_same
      ⟨h.token_nonneg, h.wallet_nonneg, h.consumed, Bool.eq_false_iff.mpr hcharged.2⟩ ⟨rfl, rfl⟩
  · exact effect_giveUp h insufficient fallback

variable {insufficient : Bool}

/-- A session whose rollback is over counts nothing as charged any more. -/
theorem Sound.rolledBack (h : Sound p) (hphase : p.phase = .rollback insufficient)
    {taken : ℤ} (htaken : 0 ≤ taken) : Sound { p with tokenTaken := taken, tokenConsumed := 0 } := by
  refine ⟨htaken, h.wallet_nonneg, fun _ => ⟨le_rfl, htaken⟩, ?_⟩
  have hpaid := h.paid
  rw [hphase] at hpaid
  simp only [hphase]
  exact hpaid

theorem effect_tokenUpdate (h : Sound p) {f : Funding} (hamount : 0 < p.amount f)
    (hcovered : p.amount f ≤ b.remainQuota) :
    Effect b p ({ b with remainQuota := b.remainQuota - p.amount f },
      { p with
        phase := .fundingUpdate f
        tokenConsumed := p.amount f
        tokenTaken := p.tokenTaken + p.amount f }) := by
  have htaken := h.token_nonneg
  refine ⟨⟨?_, h.wallet_nonneg, fun _ => ⟨hamount.le, ?_⟩, fun _ => ?_⟩, ?_, rfl, .inr ?_, .inl le_rfl⟩
  · show 0 ≤ p.tokenTaken + p.amount f
    omega
  · show p.amount f ≤ p.tokenTaken + p.amount f
    omega
  · show p.amount f ≤ p.tokenTaken + p.amount f
    omega
  · simp
  · show 0 ≤ b.remainQuota - p.amount f
    omega

theorem effect_walletUpdate (h : Sound p) (hphase : p.phase = .fundingUpdate .wallet)
    (hquota : 0 < p.quota) (hcovered : p.quota ≤ b.userQuota) :
    Effect b p ({ b with userQuota := b.userQuota - p.quota },
      { p with phase := .granted .wallet, walletTaken := p.walletTaken + p.quota }) := by
  have hwallet := h.wallet_nonneg
  have hpaid := h.paid
  rw [hphase] at hpaid
  refine ⟨⟨h.token_nonneg, ?_, h.consumed, hpaid, fun _ => ?_⟩, rfl, ?_, .inl le_rfl, .inr ?_⟩
  · show 0 ≤ p.walletTaken + p.quota
    omega
  · show p.quota ≤ p.walletTaken + p.quota
    omega
  · simp
  · show 0 ≤ b.userQuota - p.quota
    omega

/-- The rollback of the token. -/
theorem effect_rollback (h : Sound p) (hphase : p.phase = .rollback insufficient) (fallback : Bool) :
    Effect b p ({ b with remainQuota := b.remainQuota + p.tokenConsumed },
      { p with tokenTaken := p.tokenTaken - p.tokenConsumed, tokenConsumed := 0 }.giveUp insufficient fallback) := by
  have hpaid := h.paid
  rw [hphase] at hpaid
  have hconsumed := h.consumed hpaid
  have hgivesUp := effect_giveUp (b := { b with remainQuota := b.remainQuota + p.tokenConsumed })
    (h.rolledBack hphase (sub_nonneg.mpr hconsumed.2)) insufficient fallback
  refine ⟨hgivesUp.sound, hgivesUp.token_eq.trans ?_, hgivesUp.wallet_eq, .inl ?_, .inl le_rfl⟩
  · simp
  · show b.remainQuota ≤ b.remainQuota + p.tokenConsumed
    omega

/-- **One statement of a session**, whatever it meets, as long as an update is executed while its
check still holds. -/
theorem act_effect (h : Sound p) (a : Action) (hcovered : stillCovered b p a) : Effect b p (act b p a) := by
  have hpaid := h.paid
  rw [act]
  rw [stillCovered] at hcovered
  cases hphase : p.phase with
  | start =>
    dsimp only
    split
    · exact effect_refuse h
    · exact effect_next h
  | userRead =>
    dsimp only
    split
    · exact effect_refuse h
    split
    · exact effect_giveUp h _ _
    · exact effect_enter h _
  | tokenRead f =>
    rw [hphase] at hpaid
    dsimp only
    split
    · exact effect_refuse h
    · exact effect_of_same ⟨h.token_nonneg, h.wallet_nonneg, h.consumed, hpaid⟩ ⟨rfl, rfl⟩
  | tokenUpdate f =>
    rw [hphase] at hpaid hcovered
    dsimp only
    split
    · rename_i hok
      exact effect_tokenUpdate h hpaid (hcovered hok)
    · exact effect_refuse h
  | fundingUpdate f =>
    rw [hphase] at hpaid hcovered
    cases f with
    | wallet =>
      dsimp only
      split
      · rename_i hnone
        refine effect_of_same ⟨h.token_nonneg, h.wallet_nonneg, h.consumed, hpaid, fun _ => ?_⟩ ⟨rfl, rfl⟩
        exact le_trans hnone h.wallet_nonneg
      rename_i hsome
      split
      · rename_i hok
        exact effect_walletUpdate h hphase (not_le.mp hsome) (hcovered hok (not_le.mp hsome))
      · exact effect_fail h _ _
    | subscription =>
      dsimp only
      split
      · exact effect_of_same ⟨h.token_nonneg, h.wallet_nonneg, h.consumed, hpaid, nofun⟩ ⟨rfl, rfl⟩
      · exact effect_fail h _ _
  | rollback insufficient =>
    dsimp only
    split
    · exact effect_rollback h hphase a.fallback
    · exact { effect_giveUp (h.rolledBack hphase h.token_nonneg) _ _ with }
  | granted f | refused => exact effect_of_same h ⟨rfl, rfl⟩

end Statement

/-! ## Every interleaving -/

section Interleaving

variable {ι : Type*} [Fintype ι]

/-- What holds after any number of statements: the sessions have taken what the balances have lost
since the start, and no balance is below zero that was not so at the start. -/
structure Inv (start : Balances) (s : System ι Balances Proc) : Prop where
  sound : ∀ i, Sound (s.proc i)
  token_eq : s.shared.remainQuota + total Proc.tokenTaken s = start.remainQuota
  wallet_eq : s.shared.userQuota + total Proc.walletTaken s = start.userQuota
  token_floor : start.remainQuota ≤ s.shared.remainQuota ∨ 0 ≤ s.shared.remainQuota
  wallet_floor : start.userQuota ≤ s.shared.userQuota ∨ 0 ≤ s.shared.userQuota

/-- Every session before its first statement. -/
def opening (start : Balances) (sessions : ι → ℤ × Bool × List Funding) : System ι Balances Proc :=
  ⟨start, fun i =>
    { quota := (sessions i).1, isPlayground := (sessions i).2.1, tries := (sessions i).2.2 }⟩

theorem opening_inv (start : Balances) (sessions : ι → ℤ × Bool × List Funding) :
    Inv start (opening start sessions) := by
  refine ⟨fun i => ⟨le_rfl, le_rfl, fun _ => ⟨le_rfl, le_rfl⟩, trivial⟩, ?_, ?_, .inl le_rfl, .inl le_rfl⟩
  · show start.remainQuota + ∑ _i : ι, (0 : ℤ) = start.remainQuota
    rw [Finset.sum_const_zero, add_zero]
  · show start.userQuota + ∑ _i : ι, (0 : ℤ) = start.userQuota
    rw [Finset.sum_const_zero, add_zero]

variable [DecidableEq ι]

/-- The step lemma. -/
theorem move_inv {start : Balances} (s : System ι Balances Proc) (a : ι × Action)
    (hcovered : stillCovered s.shared (s.proc a.1) a.2) (h : Inv start s) : Inv start (move act s a) := by
  have heffect := act_effect (h.sound a.1) a.2 hcovered
  have htoken := heffect.token_eq
  have hwallet := heffect.wallet_eq
  have htoken₀ := h.token_eq
  have hwallet₀ := h.wallet_eq
  refine ⟨move_proc (P := fun _ => Sound) heffect.sound fun j _ => h.sound j, ?_, ?_, ?_, ?_⟩
  · rw [total_move, move_shared]
    omega
  · rw [total_move, move_shared]
    omega
  · rw [move_shared]
    have hfloor := heffect.token_floor
    have hfloor₀ := h.token_floor
    omega
  · rw [move_shared]
    have hfloor := heffect.wallet_floor
    have hfloor₀ := h.wallet_floor
    omega

/-- A session is granted at most what it has taken. -/
theorem grantedToken_le {p : Proc} (h : Sound p) : grantedToken p ≤ p.tokenTaken := by
  have hpaid := h.paid
  rw [grantedToken]
  split
  · rename_i f hphase
    rw [hphase] at hpaid
    split
    · exact h.token_nonneg
    · rename_i hplay
      exact hpaid.1 (Bool.eq_false_iff.mpr hplay)
  · exact h.token_nonneg

theorem grantedWallet_le {p : Proc} (h : Sound p) : grantedWallet p ≤ p.walletTaken := by
  have hpaid := h.paid
  rw [grantedWallet]
  split
  · rename_i hphase
    rw [hphase] at hpaid
    exact hpaid.2 rfl
  · exact h.wallet_nonneg

/-- **Opening sessions together.**  In every interleaving in which each update is executed while the
balance it lowers still covers the amount, the sessions are granted no more from the token than it
had at the start, and no more from the wallet than was in it (a balance that is negative at the
start grants nothing). -/
theorem granted_within_balances (start : Balances) (sessions : ι → ℤ × Bool × List Funding) (acts : List (ι × Action))
    (hcovered : Respects (move act) (fun s a => stillCovered s.shared (s.proc a.1) a.2) (opening start sessions) acts) :
    total grantedToken (run (move act) (opening start sessions) acts) ≤ max 0 start.remainQuota ∧
      total grantedWallet (run (move act) (opening start sessions) acts) ≤
        max 0 start.userQuota := by
  have hinv : Inv start (run (move act) (opening start sessions) acts) :=
    run_preserves_of_respects move_inv hcovered (opening_inv start sessions)
  generalize run (move act) (opening start sessions) acts = s at hinv ⊢
  have htoken : total grantedToken s ≤ total Proc.tokenTaken s :=
    Finset.sum_le_sum fun i _ => grantedToken_le (hinv.sound i)
  have hwallet : total grantedWallet s ≤ total Proc.walletTaken s :=
    Finset.sum_le_sum fun i _ => grantedWallet_le (hinv.sound i)
  have htoken₀ := hinv.token_eq
  have hwallet₀ := hinv.wallet_eq
  have hfloor := hinv.token_floor
  have hfloor' := hinv.wallet_floor
  constructor
  · omega
  · omega

end Interleaving

/-- Two requests of 10 with the same token and wallet. -/
def twoSessions : Two → ℤ × Bool × List Funding := fun _ => (10, false, [.wallet])

/-- The second session starts when the first is open. -/
def oneByOne : List (Two × Action) :=
  [.first, .first, .first, .first, .first, .second, .second].map fun i => (i, ({} : Action))

/-- Both sessions read both balances before either of them lowers one. -/
def sideBySide : List (Two × Action) :=
  [.first, .first, .first, .second, .second, .second, .first, .first, .second, .second].map
    fun i => (i, ({} : Action))

theorem granted_within_balances_one_by_one :
    Respects (move act) (fun s a => stillCovered s.shared (s.proc a.1) a.2)
        (opening ⟨10, 10⟩ twoSessions) oneByOne ∧
      total grantedToken (run (move act) (opening ⟨10, 10⟩ twoSessions) oneByOne) ≤ 10 ∧
      total grantedWallet (run (move act) (opening ⟨10, 10⟩ twoSessions) oneByOne) ≤ 10 :=
  ⟨by decide, granted_within_balances ⟨10, 10⟩ twoSessions oneByOne (by decide)⟩

/-- Two sessions side by side on balances of 10 are granted 20 from each of them. -/
theorem granted_beyond_balances :
    total grantedToken (run (move act) (opening ⟨10, 10⟩ twoSessions) sideBySide) = 20 ∧
      total grantedWallet (run (move act) (opening ⟨10, 10⟩ twoSessions) sideBySide) = 20 := by
  decide

/-! ## A session alone -/

section Alone

def balances (w : World) : Balances := ⟨w.token.remainQuota, w.userQuota⟩

/-- The source of funding, without what it carries. -/
def kind : FundingSource → Funding
  | .wallet _ => .wallet
  | .subscription _ => .subscription

/-- The action says what the statements of a session meet in a world. -/
structure Meets (ctx : Context) (faults : ChargeFaults) (w : World) (funding : FundingSource) (a : Action) : Prop where
  tokenRead : faults.tokenRead = if a.tokenReadOk then some w.token.remainQuota else none
  tokenOk : faults.tokenOk = a.tokenOk
  rollbackOk : faults.rollbackOk = a.rollbackOk
  fundingOk : match funding with
    | .wallet _ => faults.fundingOk = a.fundingOk
    | .subscription f => ∃ answer, answer.isOk = a.fundingOk ∧
        preConsumeUserSubscription ctx.env faults.fundingOk w.db f.requestId f.userId f.modelName
          f.usingGroup f.amount = some answer

/-- The statements of a session end where the session does: with the same balances, and granted
exactly when the session is opened. -/
def EndsAs (f : Funding) (r : Balances × Proc) :
    Option (World × Except TheOneError BillingSession) → Prop
  | none => False
  | some (w', .ok _) => r.1 = balances w' ∧ r.2.phase = .granted f
  | some (w', .error _) => r.1 = balances w' ∧ r.2.phase = .refused

variable {p : Proc}

theorem alone_granted (a : Action) (n : ℕ) (b : Balances) {f : Funding}
    (h : p.phase = .granted f) : alone act a n b p = (b, p) := by
  refine alone_of_fixed ?_ n
  rw [act, h]

theorem alone_refused (a : Action) (n : ℕ) (b : Balances) (h : p.phase = .refused) : alone act a n b p = (b, p) := by
  refine alone_of_fixed ?_ n
  rw [act, h]

theorem giveUp_refused (htries : p.tries = []) (insufficient fallback : Bool) :
    (p.giveUp insufficient fallback).phase = .refused := by
  rw [Proc.giveUp, Proc.next, htries]
  split
  · rfl
  · rfl

variable {s : BillingSession}

/-- The error path of `preConsume`, with no other funding source to try. -/
theorem fail_alone (htries : p.tries = []) (hconsumed : p.tokenConsumed = s.tokenConsumed)
    (hplay : p.isPlayground = s.relayInfo.isPlayground) (a : Action) (w : World) (n : ℕ) (insufficient : Bool) :
    (alone act a (n + 1) (balances w) (p.fail insufficient a.fallback)).1 =
        balances (rollbackToken a.rollbackOk w s) ∧
      (alone act a (n + 1) (balances w) (p.fail insufficient a.fallback)).2.phase = .refused := by
  rw [Proc.fail, rollbackToken, ← hconsumed, ← hplay]
  split
  · rename_i hcharged
    rw [alone_succ, increaseTokenQuota, quotaUpdate, if_neg hcharged.1.le.not_gt]
    simp only [act]
    cases hok : a.rollbackOk with
    | true =>
      simp only [if_true]
      have hend := giveUp_refused (p := { p with
        phase := .rollback insufficient
        tokenTaken := p.tokenTaken - p.tokenConsumed
        tokenConsumed := 0 }) htries insufficient a.fallback
      rw [alone_refused a n _ hend]
      exact ⟨rfl, hend⟩
    | false =>
      simp only [Bool.false_eq_true, if_false]
      have hend := giveUp_refused (p := { p with
        phase := .rollback insufficient
        tokenConsumed := 0 }) htries insufficient a.fallback
      rw [alone_refused a n _ hend]
      exact ⟨rfl, hend⟩
  · have hend := giveUp_refused htries insufficient a.fallback
    rw [alone_refused a (n + 1) _ hend]
    exact ⟨rfl, hend⟩

/-- A session and its statements agree on what they are about to charge. -/
structure Matches (p : Proc) (s : BillingSession) (quota : ℤ) : Prop where
  tries : p.tries = []
  amount : p.amount (kind s.funding) = quota
  playground : p.isPlayground = s.relayInfo.isPlayground
  consumed : p.tokenConsumed = s.tokenConsumed

variable {ctx : Context} {faults : ChargeFaults} {w : World} {a : Action} {quota : ℤ}

/-- The second half of `preConsume`, whatever the token holds by then. -/
theorem preConsumeFunding_alone (hmeets : Meets ctx faults w s.funding a)
    (hmatch : Matches p s quota) (hphase : p.phase = .fundingUpdate (kind s.funding)) (token : TokenQuota) (n : ℕ) :
    EndsAs (kind s.funding) (alone act a (n + 2) (balances { w with token }) p)
      (preConsumeFunding ctx faults { w with token } s quota) := by
  have hamount := hmatch.amount
  have hfunding := hmeets.fundingOk
  have hfail : ∀ insufficient : Bool, ∀ e, EndsAs (kind s.funding)
      (alone act a (n + 1) (balances { w with token }) (p.fail insufficient a.fallback))
      (some (rollbackToken faults.rollbackOk { w with token } s, .error e)) := fun insufficient e => by
    rw [hmeets.rollbackOk]
    exact fail_alone hmatch.tries hmatch.consumed hmatch.playground a _ n insufficient
  rw [preConsumeFunding, FundingSource.preConsume.eq_def, alone_succ, act.eq_def, hphase]
  cases hkind : s.funding with
  | wallet consumed =>
    rw [hkind] at hamount hfunding hfail
    have hquota : p.quota = quota := hamount
    simp only [kind, hquota]
    by_cases hnone : quota ≤ 0
    · simp only [if_pos hnone]
      rw [alone_granted a (n + 1) _ rfl]
      exact ⟨rfl, rfl⟩
    have hnonneg : ¬ quota < 0 := by omega
    rw [decreaseUserQuota, quotaUpdate, hfunding]
    simp only [if_neg hnone, if_neg hnonneg]
    cases a.fundingOk with
    | true =>
      simp only [if_true, Except.map]
      rw [alone_granted a (n + 1) _ rfl]
      exact ⟨rfl, rfl⟩
    | false => exact hfail false _
  | subscription f =>
    rw [hkind] at hfunding hfail
    obtain ⟨answer, hok, hanswer⟩ := hfunding
    simp only [kind, hanswer, ← hok]
    cases answer with
    | ok r =>
      simp only [Except.isOk, Except.toBool, if_true]
      rw [alone_granted a (n + 1) _ rfl]
      exact ⟨rfl, rfl⟩
    | error e => exact hfail _ _

/-- Charging the token is counted on both sides. -/
theorem Matches.charge (h : Matches p s quota) (phase : Phase) (trusted : Bool) (tokenTaken : ℤ) :
    Matches { p with phase, tokenTaken, tokenConsumed := quota }
      { s with trusted, tokenConsumed := quota } quota :=
  ⟨h.tries, h.amount, h.playground, rfl⟩

/-- The update of the token and what follows it. -/
theorem tokenUpdate_alone
    (hmeets : Meets ctx faults w s.funding a)
    (hmatch : Matches p s quota) (hphase : p.phase = .tokenUpdate (kind s.funding))
    (hpos : 0 < quota) (trusted : Bool) (n : ℕ) :
    EndsAs (kind s.funding) (alone act a (n + 3) (balances w) p) (match decreaseTokenQuota faults.tokenOk w quota with
        | .error e => some (w, .error (newForbidden e .preConsumeTokenQuotaFailed))
        | .ok w' => preConsumeFunding ctx faults w' { s with trusted, tokenConsumed := quota }
            quota) := by
  rw [alone_succ, act, hphase, decreaseTokenQuota, quotaUpdate, if_neg hpos.le.not_gt, hmeets.tokenOk]
  simp only [hmatch.amount]
  cases a.tokenOk with
  | true =>
    exact preConsumeFunding_alone (s := { s with trusted, tokenConsumed := quota }) hmeets
      (hmatch.charge (.fundingUpdate (kind s.funding)) trusted _) rfl _ n
  | false =>
    simp only [Bool.false_eq_true, if_false]
    rw [alone_refused a (n + 2) _ rfl]
    exact ⟨rfl, rfl⟩

/-- `preConsume` for a session that is not trusted and whose token is limited. -/
theorem preConsume_alone (hmeets : Meets ctx faults w s.funding a)
    (hmatch : Matches p s quota) (htrust : s.shouldTrust ctx = false)
    (hlimited : s.relayInfo.tokenUnlimited = false) (n : ℕ) :
    EndsAs (kind s.funding) (alone act a (n + 4) (balances w) (p.enter (kind s.funding)))
      (preConsume ctx faults w s quota) := by
  rw [preConsume, htrust, Proc.enter, hmatch.amount]
  simp only [Bool.false_eq_true, if_false]
  by_cases hnone : quota ≤ 0
  · rw [if_pos hnone, if_neg hnone.not_gt]
    exact preConsumeFunding_alone (s := { s with trusted := false })
      (p := { p with phase := .fundingUpdate (kind s.funding) }) hmeets
      ⟨hmatch.tries, hmatch.amount, hmatch.playground, hmatch.consumed⟩ rfl w.token (n + 2)
  have hpos : 0 < quota := not_le.mp hnone
  rw [if_neg hnone, if_pos hpos, preConsumeTokenQuota, if_neg hpos.le.not_gt, ← hmatch.playground]
  by_cases hplay : p.isPlayground = true
  · rw [if_pos hplay, if_pos hplay]
    exact preConsumeFunding_alone (s := { s with trusted := false, tokenConsumed := quota }) hmeets
      (hmatch.charge (.fundingUpdate (kind s.funding)) false p.tokenTaken) rfl w.token (n + 2)
  rw [if_neg hplay, if_neg hplay, hmeets.tokenRead, hlimited, alone_succ, act]
  have hamount : Proc.amount { p with phase := .tokenRead (kind s.funding) } (kind s.funding) =
      quota := hmatch.amount
  simp only [hamount, Bool.false_eq_true, not_false_eq_true, true_and]
  cases a.tokenReadOk with
  | false =>
    rw [alone_refused a (n + 3) _ rfl]
    exact ⟨rfl, rfl⟩
  | true =>
    simp only [if_true, not_true_eq_false, false_or]
    by_cases hshort : w.token.remainQuota < quota
    · simp only [show (balances w).remainQuota < quota from hshort, hshort, if_true]
      rw [alone_refused a (n + 3) _ rfl]
      exact ⟨rfl, rfl⟩
    simp only [show ¬ (balances w).remainQuota < quota from hshort, hshort, if_false]
    exact tokenUpdate_alone (p := { p with phase := .tokenUpdate (kind s.funding) }) hmeets
      ⟨hmatch.tries, hmatch.amount, hmatch.playground, hmatch.consumed⟩ rfl hpos false n

/-- **A wallet session alone**: its statements do what `tryWallet` does. -/
theorem tryWallet_steps {info : RelayInfo} (hquota : 0 ≤ quota)
    (hmeets : Meets ctx faults w (.wallet 0) a) (hlimited : info.tokenUnlimited = false)
    (htrust : shouldTrust ctx ⟨{ info with userQuota := w.userQuota }, .wallet 0, 0, 0, 0, false,
      false, false, false⟩ = false) :
    EndsAs .wallet
      (alone act a 6 (balances w) ⟨quota, info.isPlayground, [.wallet], .start, 0, 0, 0⟩)
      (tryWallet ctx (if a.userReadOk then some w.userQuota else none) faults w info quota) := by
  have hstart : act (balances w) ⟨quota, info.isPlayground, [.wallet], .start, 0, 0, 0⟩ a =
      (balances w, ⟨quota, info.isPlayground, [], .userRead, 0, 0, 0⟩) := by
    simp only [act, if_neg hquota.not_gt, Proc.next]
  rw [alone_succ, hstart, alone_succ, act, tryWallet.eq_def]
  cases a.userReadOk with
  | false => exact ⟨rfl, rfl⟩
  | true =>
    have huser : (balances w).userQuota = w.userQuota := rfl
    simp only [not_true_eq_false, if_false, if_true, huser]
    have hend : (Proc.giveUp ⟨quota, info.isPlayground, [], .userRead, 0, 0, 0⟩ true
        a.fallback).phase = .refused := giveUp_refused rfl true a.fallback
    by_cases hnone : w.userQuota ≤ 0
    · rw [if_pos (Or.inl hnone), if_pos hnone, alone_refused a 4 _ hend]
      exact ⟨rfl, hend⟩
    by_cases hshort : w.userQuota - quota < 0
    · rw [if_pos (Or.inr hshort), if_neg hnone, if_pos hshort, alone_refused a 4 _ hend]
      exact ⟨rfl, hend⟩
    rw [if_neg (not_or.mpr ⟨hnone, hshort⟩), if_neg hnone, if_neg hshort]
    exact preConsume_alone (p := ⟨quota, info.isPlayground, [], .userRead, 0, 0, 0⟩) hmeets
      ⟨rfl, rfl, rfl, rfl⟩ htrust hlimited 0

/-- **A subscription session alone**: its statements do what `trySubscription` does. -/
theorem trySubscription_steps {info : RelayInfo} (hquota : 0 ≤ quota)
    (hmeets : Meets ctx faults w (.subscription ⟨info.requestId, info.userId, info.originModelName,
      info.usingGroup, subConsume quota, 0, 0⟩) a) (hlimited : info.tokenUnlimited = false) :
    EndsAs .subscription
      (alone act a 5 (balances w) ⟨quota, info.isPlayground, [.subscription], .start, 0, 0, 0⟩)
      (trySubscription ctx faults w info quota) := by
  have hstart : act (balances w) ⟨quota, info.isPlayground, [.subscription], .start, 0, 0, 0⟩ a =
      (balances w,
        Proc.enter ⟨quota, info.isPlayground, [], .start, 0, 0, 0⟩ .subscription) := by
    simp only [act, if_neg hquota.not_gt, Proc.next]
  rw [alone_succ, hstart, trySubscription]
  refine preConsume_alone (p := ⟨quota, info.isPlayground, [], .start, 0, 0, 0⟩) hmeets
    ⟨rfl, rfl, rfl, rfl⟩ ?_ hlimited 0
  rw [shouldTrust]
  simp only [ite_self]

end Alone

end OneApi.Billing.Overdraw
