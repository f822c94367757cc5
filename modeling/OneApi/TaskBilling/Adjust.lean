import OneApi.Billing.PostConsume

/-!
# Settling and refunding the quota of a task

Once a task is polled to its end, `RecalculateTaskQuota` moves its charge to the quota that was
really used and `RefundTaskQuota` gives it back.  Both adjust the funding source first, then the
token, and write the new quota to the row last; an adjustment of the funding that fails ends the
call.

What a task has cost its funding source, beyond what was used otherwise, is then always the quota of
the row (`task_ledger`).  The balance of a subscription that was reset since the charge is the one
place where this can be off: the quota used does not go below zero.
-/

namespace OneApi.TaskBilling.Adjust

open OneApi.Lib OneApi.Lib.Run OneApi.Subscription.Model OneApi.Subscription.PreConsume
open OneApi.Billing.Session OneApi.Billing.Invariant OneApi.Billing.PostConsume

/-- The columns of a task that its billing reads; tasks of earlier versions have no billing source. -/
structure Task where
  billingSource : BillingSource
  subscriptionId : ℤ
  tokenId : ℤ
  quota : ℤ
  deriving Repr, DecidableEq

/-- The balances, and whether the row of the user is still there: an `UPDATE` of a row that is
deleted reports no error. -/
structure Funds where
  world : World
  hasUser : Bool

/-- What the statements of one call meet: whether the funding can be adjusted, whether the token is
found by its id and can be adjusted, and whether the quota of the row can be written. -/
structure Faults where
  fundingOk : Bool
  tokenFound : Bool
  tokenOk : Bool
  writeOk : Bool
  deriving Repr, DecidableEq

def taskIsSubscription (task : Task) : Prop :=
  task.billingSource = .subscription ∧ 0 < task.subscriptionId

instance (task : Task) : Decidable (taskIsSubscription task) := inferInstanceAs (Decidable (_ ∧ _))

/-- An update of the user, which does nothing when the row is gone. -/
def updateUser (funds : Funds) (update : World → Except BillingError World) : Except BillingError Funds :=
  if funds.hasUser then (update funds.world).map fun world => { funds with world } else .ok funds

def taskAdjustFunding (ok : Bool) (funds : Funds) (task : Task) (delta : ℤ) : Except BillingError Funds :=
  if taskIsSubscription task then
    ((postConsumeDelta ok funds.world task.subscriptionId delta).mapError .subscription).map
      fun world => { funds with world }
  else if 0 < delta then updateUser funds fun w => decreaseUserQuota ok w delta
  else updateUser funds fun w => increaseUserQuota ok w (-delta)

/-- `taskAdjustTokenQuota`; its error is only logged. -/
def taskAdjustTokenQuota (faults : Faults) (funds : Funds) (task : Task) (delta : ℤ) : Funds :=
  if task.tokenId ≤ 0 ∨ delta = 0 ∨ ¬ faults.tokenFound then funds
  else
    match if 0 < delta then decreaseTokenQuota faults.tokenOk funds.world delta
        else increaseTokenQuota faults.tokenOk funds.world (-delta) with
    | .error _ => funds
    | .ok world => { funds with world }

/-- The balances, the copy of the task a call works on, and the quota in its row. -/
structure State where
  funds : Funds
  task : Task
  stored : ℤ

/-- A task as it was read. -/
def State.read (funds : Funds) (task : Task) : State := ⟨funds, task, task.quota⟩

/-- `UpdateQuota`, after the copy got its new quota. -/
def writeQuota (ok : Bool) (funds : Funds) (st : State) (quota : ℤ) : State :=
  ⟨funds, { st.task with quota }, if ok then quota else st.stored⟩

def refundTaskQuota (faults : Faults) (st : State) : State × Bool :=
  let quota := st.task.quota
  if quota = 0 then (st, true)
  else
    match taskAdjustFunding faults.fundingOk st.funds st.task (-quota) with
    | .error _ => (st, false)
    | .ok funds =>
      (writeQuota faults.writeOk (taskAdjustTokenQuota faults funds st.task (-quota)) st 0, true)

def recalculateTaskQuota (faults : Faults) (st : State) (actualQuota : ℤ) : State :=
  let quotaDelta := actualQuota - st.task.quota
  if actualQuota ≤ 0 ∨ quotaDelta = 0 then st
  else
    match taskAdjustFunding faults.fundingOk st.funds st.task quotaDelta with
    | .error _ => st
    | .ok funds =>
      writeQuota faults.writeOk (taskAdjustTokenQuota faults funds st.task quotaDelta) st actualQuota

inductive Call
  | recalculate (actualQuota : ℤ) (faults : Faults)
  | refund (faults : Faults)
  deriving Repr, DecidableEq

def Call.faults : Call → Faults
  | .recalculate _ faults => faults
  | .refund faults => faults

def step (st : State) : Call → State
  | .recalculate actualQuota faults => recalculateTaskQuota faults st actualQuota
  | .refund faults => (refundTaskQuota faults st).1

/-! ## One adjustment -/

/-- The account a task is charged to. -/
def fundingAccount (task : Task) : Account :=
  if taskIsSubscription task then .subscription task.subscriptionId else .user

/-- The account is there: a subscription says so itself when it is adjusted, a user does not. -/
def Chargeable (funds : Funds) (task : Task) : Prop :=
  taskIsSubscription task ∨ funds.hasUser = true

variable {funds : Funds}

/-- An update of a user that is there is the update of the balance. -/
theorem updateUser_ok {funds' : Funds} {update : World → Except BillingError World}
    (huser : funds.hasUser = true) (h : updateUser funds update = .ok funds') :
    funds'.hasUser = true ∧ update funds.world = .ok funds'.world := by
  rw [updateUser, if_pos huser] at h
  cases hu : update funds.world with
  | error e => rw [hu] at h; cases h
  | ok world => rw [hu] at h; cases h; exact ⟨huser, rfl⟩

/-- **A successful adjustment** moves the account by the delta, that of a subscription down to zero
at most. -/
theorem taskAdjustFunding_used {ok : Bool} {funds' : Funds} {task : Task} {delta : ℤ}
    (hne : delta ≠ 0) (hfunds : Chargeable funds task) (h : taskAdjustFunding ok funds task delta = .ok funds') :
    funds'.hasUser = funds.hasUser ∧
      used funds'.world (fundingAccount task) =
        floored (fundingAccount task) (used funds.world (fundingAccount task) + delta) := by
  rw [taskAdjustFunding] at h
  rw [fundingAccount]
  by_cases hsub : taskIsSubscription task
  · rw [if_pos hsub] at h ⊢
    cases hd : postConsumeDelta ok funds.world task.subscriptionId delta with
    | error e => rw [hd] at h; cases h
    | ok world =>
      rw [hd] at h
      cases h
      exact ⟨rfl, usedOf_postConsume hne hd⟩
  · rw [if_neg hsub] at h ⊢
    have huser : funds.hasUser = true := hfunds.resolve_left hsub
    have hmove : updateUser funds (fun w => if 0 < delta then decreaseUserQuota ok w delta
        else increaseUserQuota ok w (-delta)) = .ok funds' := by
      rw [← h]
      split <;> rfl
    obtain ⟨huser', hupdate⟩ := updateUser_ok huser hmove
    simp only [userDelta_eq] at hupdate
    refine ⟨huser'.trans huser.symm, ?_⟩
    cases ok with
    | false => cases hupdate
    | true =>
      rw [← Except.ok.inj hupdate]
      simp only [used, floored]
      omega

/-- The token has no part in what an account has used. -/
theorem taskAdjustTokenQuota_used (faults : Faults) (funds : Funds) (task : Task) (delta : ℤ) (acct : Account) :
    (taskAdjustTokenQuota faults funds task delta).hasUser = funds.hasUser ∧
      used (taskAdjustTokenQuota faults funds task delta).world acct = used funds.world acct := by
  rw [taskAdjustTokenQuota, tokenDelta_eq]
  split
  · exact ⟨rfl, rfl⟩
  cases faults.tokenOk with
  | false => exact ⟨rfl, rfl⟩
  | true => exact ⟨rfl, used_withToken funds.world _ acct⟩

/-! ## The ledger of a task -/

/-- What the account has used beyond the task. -/
def besides (st : State) : ℤ := used st.funds.world (fundingAccount st.task) - st.stored

/-- The copy is the row, and its account is there. -/
structure Ready (st : State) : Prop where
  synced : st.stored = st.task.quota
  chargeable : Chargeable st.funds st.task

/-- What two states of one task agree on: what the account has used beyond the task, where a
subscription that has used less than the quota of the task counts as zero. -/
structure Agree (st st' : State) : Prop where
  account : fundingAccount st'.task = fundingAccount st.task
  ready : Ready st'
  ledger : floored (fundingAccount st.task) (besides st') = floored (fundingAccount st.task) (besides st)
  covered : 0 ≤ besides st → besides st' = besides st

variable {st : State}

theorem Agree.refl (h : Ready st) : Agree st st := ⟨rfl, h, rfl, fun _ => rfl⟩

theorem Agree.trans {st₁ st₂ st₃ : State} (h : Agree st₁ st₂) (h' : Agree st₂ st₃) : Agree st₁ st₃ := by
  have hledger := h'.ledger
  rw [h.account] at hledger
  refine ⟨h'.account.trans h.account, h'.ready, hledger.trans h.ledger, fun hnonneg => ?_⟩
  have hmid := h.covered hnonneg
  rw [h'.covered (by omega), hmid]

variable {faults : Faults}

/-- What a call does once it goes through: the delta moves the account, and the row gets the quota
the delta leads to. -/
theorem agree_moved {quota : ℤ} (h : Ready st)
    (hquota : 0 ≤ quota) (hne : quota - st.task.quota ≠ 0) (hwrite : faults.writeOk = true)
    (hadjust : taskAdjustFunding faults.fundingOk st.funds st.task (quota - st.task.quota) = .ok funds) :
    Agree st (writeQuota faults.writeOk
      (taskAdjustTokenQuota faults funds st.task (quota - st.task.quota)) st quota) := by
  obtain ⟨huser, hused⟩ := taskAdjustFunding_used hne h.chargeable hadjust
  obtain ⟨htuser, htused⟩ := taskAdjustTokenQuota_used faults funds st.task
    (quota - st.task.quota) (fundingAccount st.task)
  have hbesides : besides (writeQuota faults.writeOk
      (taskAdjustTokenQuota faults funds st.task (quota - st.task.quota)) st quota) =
      floored (fundingAccount st.task) (besides st + quota) - quota := by
    have hrow : besides st + quota = used st.funds.world (fundingAccount st.task) + (quota - st.task.quota) := by
      rw [besides, h.synced]
      ring
    rw [hrow, ← hused, ← htused, hwrite]
    rfl
  refine ⟨rfl, ⟨?_, ?_⟩, ?_, fun hnonneg => ?_⟩
  · rw [writeQuota, hwrite]
    rfl
  · exact h.chargeable.imp_right fun hu => (htuser.trans huser).trans hu
  · rw [hbesides]
    cases fundingAccount st.task with
    | user | subscription id => simp only [floored]; omega
  · rw [hbesides]
    cases fundingAccount st.task with
    | user | subscription id => simp only [floored]; omega

theorem refundTaskQuota_agree (h : Ready st)
    (hwrite : faults.writeOk = true) : Agree st (refundTaskQuota faults st).1 := by
  rw [refundTaskQuota]
  by_cases hzero : st.task.quota = 0
  · rw [if_pos hzero]
    exact .refl h
  · rw [if_neg hzero, ← zero_sub]
    cases hadjust : taskAdjustFunding faults.fundingOk st.funds st.task (0 - st.task.quota) with
    | error e => exact .refl h
    | ok funds => exact agree_moved h le_rfl (by omega) hwrite hadjust

theorem recalculateTaskQuota_agree (h : Ready st) (hwrite : faults.writeOk = true) (actualQuota : ℤ) :
    Agree st (recalculateTaskQuota faults st actualQuota) := by
  rw [recalculateTaskQuota]
  by_cases hskip : actualQuota ≤ 0 ∨ actualQuota - st.task.quota = 0
  · rw [if_pos hskip]
    exact .refl h
  · rw [if_neg hskip]
    cases hadjust : taskAdjustFunding faults.fundingOk st.funds st.task (actualQuota - st.task.quota) with
    | error e => exact .refl h
    | ok funds => exact agree_moved h (by omega) (by omega) hwrite hadjust

theorem agree_step {st₀ : State} {c : Call} (hwrite : c.faults.writeOk = true)
    (h : Agree st₀ st) : Agree st₀ (step st c) := by
  cases c with
  | recalculate actualQuota faults =>
    exact h.trans (recalculateTaskQuota_agree h.ready hwrite actualQuota)
  | refund faults => exact h.trans (refundTaskQuota_agree h.ready hwrite)

/-- A refund of a task that holds nothing, or whose subscription is gone, leaves everything as it
is. -/
theorem refundTaskQuota_unfunded (h : st.task.quota = 0 ∨
      (taskIsSubscription st.task ∧ st.funds.world.db.subs.find st.task.subscriptionId = none)) :
    (refundTaskQuota faults st).1 = st := by
  rw [refundTaskQuota]
  by_cases hzero : st.task.quota = 0
  · rw [if_pos hzero]
  · obtain ⟨hsub, hgone⟩ := h.resolve_left hzero
    have hfail : postConsumeUserSubscriptionDelta faults.fundingOk st.funds.world.db
        st.task.subscriptionId (-st.task.quota) = .error .recordNotFound := by
      have hid := hsub.2
      rw [postConsumeUserSubscriptionDelta, if_neg (by omega), if_neg (by omega), hgone]
    rw [if_neg hzero, taskAdjustFunding, if_pos hsub, postConsumeDelta, hfail]
    rfl

/-- **The ledger of a task.**  Over every sequence of settlements and refunds, whichever
adjustments fail, the account of the task has used the same beyond the quota of the row; a
subscription that has used less than that quota counts as zero.  A refund without refundable
funding changes nothing. -/
theorem task_ledger (funds : Funds) (task : Task) (hfunds : Chargeable funds task)
    (calls : List Call) (hwrite : ∀ c ∈ calls, c.faults.writeOk = true) :
    (floored (fundingAccount task) (used (run step (State.read funds task) calls).funds.world
          (fundingAccount task) - (run step (State.read funds task) calls).stored) =
        floored (fundingAccount task) (used funds.world (fundingAccount task) - task.quota)) ∧
      (0 ≤ used funds.world (fundingAccount task) - task.quota →
        used (run step (State.read funds task) calls).funds.world (fundingAccount task) -
            (run step (State.read funds task) calls).stored =
          used funds.world (fundingAccount task) - task.quota) ∧
      ∀ st faults, (st.task.quota = 0 ∨ (taskIsSubscription st.task ∧
          st.funds.world.db.subs.find st.task.subscriptionId = none)) →
        (refundTaskQuota faults st).1 = st := by
  have hstart : Ready (State.read funds task) := ⟨rfl, hfunds⟩
  have hagree := run_preserves_of_respects (I := Agree (State.read funds task))
    (fun st c hc h => agree_step hc h) (respects_of_forall hwrite _) (.refl hstart)
  have hledger := hagree.ledger
  have hcovered := hagree.covered
  rw [besides, besides, hagree.account] at hledger hcovered
  exact ⟨hledger, hcovered, fun st faults h => refundTaskQuota_unfunded h⟩

def sampleFaults : Faults := ⟨true, true, true, true⟩

/-- A user with 500 left, a token, and a subscription with `amountUsed` of 1000 used. -/
def sampleFunds (amountUsed : ℤ) (hasUser : Bool) : Funds where
  world :=
    { userQuota := 500
      token := ⟨500, 0⟩
      db :=
        { subs := .single
            { id := 7, userId := 1, planId := 1, amountTotal := 1000, amountUsed, endTime := 500 }
          records := .empty
          allocations := [] } }
  hasUser

/-- A settlement that the funding refuses, one that goes through, and two refunds. -/
def sampleCalls : List Call :=
  [.recalculate 80 ⟨false, true, true, true⟩, .recalculate 80 sampleFaults, .refund sampleFaults, .refund sampleFaults]

theorem task_ledger_subscription :
    used (run step (State.read (sampleFunds 300 true) ⟨.subscription, 7, 3, 100⟩)
        sampleCalls).funds.world (.subscription 7) -
      (run step (State.read (sampleFunds 300 true) ⟨.subscription, 7, 3, 100⟩) sampleCalls).stored =
      300 - 100 :=
  (task_ledger (sampleFunds 300 true) ⟨.subscription, 7, 3, 100⟩ (.inl (by decide)) sampleCalls
    (by decide)).2.1 (by decide)

/-- **Where the ledger is off.**  A subscription that was reset since a task was charged 100 to it
is not lowered by the refund; and the quota of a task is cleared although its user is gone and gets
nothing. -/
theorem task_ledger_off :
    (used (refundTaskQuota sampleFaults (State.read (sampleFunds 0 true)
        ⟨.subscription, 7, 3, 100⟩)).1.funds.world (.subscription 7) -
        (refundTaskQuota sampleFaults (State.read (sampleFunds 0 true) ⟨.subscription, 7, 3, 100⟩)).1.stored ≠
      used (sampleFunds 0 true).world (.subscription 7) - 100) ∧
    (refundTaskQuota sampleFaults (State.read (sampleFunds 0 false) ⟨.wallet, 0, 3, 100⟩)).2 = true ∧
    ((refundTaskQuota sampleFaults (State.read (sampleFunds 0 false)
        ⟨.wallet, 0, 3, 100⟩)).1.funds.world.userQuota +
        (refundTaskQuota sampleFaults (State.read (sampleFunds 0 false) ⟨.wallet, 0, 3, 100⟩)).1.stored ≠
      (sampleFunds 0 false).world.userQuota + 100) := by
  decide

end OneApi.TaskBilling.Adjust
