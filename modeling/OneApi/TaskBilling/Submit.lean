import OneApi.TaskBilling.Adjust

/-!
# Submitting a task

`SubmitTask` tries channels until one of them takes the task.  The first attempt that gets as far
as a price of a model that is not free opens the billing session, and later attempts run under it.
Once an attempt succeeds the session is settled at the quota of that attempt, and the task is
stored with the same quota, whether the settlement went through or not.

The quota in the row is what a later refund gives back.  It is what the submission has taken from
the account exactly when the settlement is accepted (`stored_quota_is_debit`).  Between the calls of
a submission other requests move the balances as they like, so every call gets the balances it
meets as an input.
-/

namespace OneApi.TaskBilling.Submit

open OneApi.Lib OneApi.Subscription.Model OneApi.Subscription.PreConsume
open OneApi.Billing.Session OneApi.Billing.Session.BillingSession OneApi.Billing.Invariant
open OneApi.Billing.PostConsume OneApi.Billing.Opening OneApi.TaskBilling.Adjust

/-! ## The request and its attempts -/

/-- The price of an attempt, and the clamp that `QuotaFromFloatChecked` reports. -/
structure Price where
  quota : ℤ
  freeModel : Bool
  clamp : Option String
  deriving Repr, DecidableEq

/-- What one attempt meets.  `price` is `none` when it ends before it has one.  `answer` is `none`
when the upstream does not take the task, and otherwise the quota `AdjustBillingOnSubmit` leads to,
if it leads to any.  `retry` is what `shouldRetryTaskRelay` answers. -/
structure Attempt where
  modelName : String
  usingGroup : String
  price : Option Price
  ctx : Context
  world : World
  faults : OpenFaults
  answer : Option (Option ℤ)
  retry : Bool

/-- The part of the relay info that survives an attempt, and what the calls of the submission have
taken from each account. -/
structure Progress where
  info : RelayInfo
  session : Option BillingSession
  debit : Account → ℤ

def Progress.start (r : Request) : Progress := ⟨genRelayInfo r, none, fun _ => 0⟩

/-- `noteTaskQuotaClamp`: the first clamp wins. -/
def noteTaskQuotaClamp (info : RelayInfo) (clamp : Option String) : RelayInfo :=
  { info with quotaClamp := info.quotaClamp.or clamp }

/-- The last part of `RelayTaskSubmit`: the upstream request and the quota of its answer. -/
def submitUpstream (p : Progress) (price : Price) (a : Attempt) : Progress × Option ℤ :=
  (p, a.answer.map fun adjusted => adjusted.getD price.quota)

/-- `RelayTaskSubmit`; the result is the quota of the task, or `none` for an error. -/
def relayTaskSubmit (p : Progress) (a : Attempt) : Option (Progress × Option ℤ) :=
  match a.price with
  | none => some (p, none)
  | some price =>
    let info := noteTaskQuotaClamp
      { p.info with originModelName := a.modelName, usingGroup := a.usingGroup } price.clamp
    if p.session = none ∧ price.freeModel = false then
      let info := { info with forcePreConsume := true }
      match preConsumeBilling a.ctx a.faults a.world info price.quota with
      | none => none
      | some (w', result) =>
        let debit := fun acct => p.debit acct + openingDebit a.ctx.env a.world w' result acct
        match result with
        | .error _ => some (⟨info, none, debit⟩, none)
        | .ok s => some (submitUpstream ⟨info, some s, debit⟩ price a)
    else some (submitUpstream { p with info } price a)

/-- The loop over the attempts. -/
def submitLoop : Progress → List Attempt → Option (Progress × Option ℤ)
  | p, [] => some (p, none)
  | p, a :: rest =>
    match relayTaskSubmit p a with
    | none => none
    | some (p', some quota) => some (p', some quota)
    | some (p', none) => if a.retry then submitLoop p' rest else some (p', none)

/-- A submission: its attempts, and what its settlement and the insert of its row meet. -/
structure Submission where
  request : Request
  attempts : List Attempt
  world : World
  faults : SettleFaults
  insertOk : Bool

/-- What is left of a submission: the stored task and what was taken from each account.  The refund
of a session whose submission fails is not part of it, there is no task then. -/
structure Outcome where
  task : Option Task
  debit : Account → ℤ

/-- The row `SubmitTask` stores. -/
def initTask (r : Request) (p : Progress) (quota : ℤ) : Task :=
  ⟨billingSource p.session, (p.session.map (·.relayInfo.subscriptionId)).getD p.info.subscriptionId, r.tokenId, quota⟩

def submitTask (sub : Submission) : Option Outcome :=
  match submitLoop (.start sub.request) sub.attempts with
  | none => none
  | some (p, none) => some ⟨none, p.debit⟩
  | some (p, some quota) =>
    let w' := (settleBilling sub.faults sub.world p.info p.session quota).1
    some
      { task := if sub.insertOk then some (initTask sub.request p quota) else none
        debit := fun acct => p.debit acct + (used w' acct - used sub.world acct) }

/-- The settlement of a submission that is stored is accepted. -/
def SettlementAccepted (sub : Submission) : Prop :=
  ∀ p quota, submitLoop (.start sub.request) sub.attempts = some (p, some quota) →
    Accepts sub.faults.fundingOk sub.world (quota - preConsumed p.session) (sessionAccount p.session)

/-! ## What a submission holds before it is settled -/

/-- What has been taken so far is what the session has pre-consumed. -/
structure Holding (r : Request) (p : Progress) : Prop where
  request : p.info.requestId = r.requestId
  final : p.info.finalPreConsumedQuota = 0
  none : p.session = none → p.info.subscriptionId = 0 ∧ ∀ acct, p.debit acct = 0
  unsettled : Unsettled p.session
  some : ∀ s, p.session = some s → p.debit (account s.funding) = s.preConsumedQuota

theorem holding_start (r : Request) : Holding r (.start r) := by
  refine ⟨rfl, rfl, fun _ => ⟨rfl, fun _ => rfl⟩, .none, ?_⟩
  intro s h
  cases h

variable {r : Request} {p p' : Progress}

/-- **One attempt** keeps what is held in step with the session. -/
theorem relayTaskSubmit_holding {a : Attempt} {quota : Option ℤ}
    (hready : Billing.Opening.Ready r.requestId a.world.db) (hp : Holding r p)
    (h : relayTaskSubmit p a = some (p', quota)) : Holding r p' := by
  rw [relayTaskSubmit] at h
  split at h
  · cases h
    exact hp
  rename_i price hprice
  simp only at h
  split at h
  · rename_i hguard
    obtain ⟨hsub, hdebit⟩ := hp.none hguard.1
    split at h
    · cases h
    rename_i w' result hpre
    split at h
    · rename_i e
      cases h
      refine ⟨hp.request, hp.final, fun _ => ⟨hsub, fun acct => ?_⟩, .none, fun s hs => by cases hs⟩
      show p.debit acct + openingDebit _ _ _ _ acct = 0
      rw [hdebit, openingDebit_error hpre, add_zero]
    · rename_i s
      cases h
      obtain ⟨hopened, hunsettled⟩ := openingDebit_ok (hp.request.symm ▸ hready) hpre
      refine ⟨hp.request, hp.final, fun hs => (by cases hs), hunsettled, ?_⟩
      rintro _ ⟨⟩
      show p.debit _ + openingDebit _ _ _ _ _ = _
      rw [hdebit, zero_add]
      exact hopened
  · cases h
    exact ⟨hp.request, hp.final, hp.none, hp.unsettled, hp.some⟩

/-- An attempt that the upstream answer does not adjust records its price. -/
theorem relayTaskSubmit_unadjusted {a : Attempt} {price : Price} {quota : ℤ}
    (hprice : a.price = some price) (hanswer : a.answer = some none)
    (h : relayTaskSubmit p a = some (p', some quota)) : quota = price.quota := by
  have hupstream : ∀ q : Progress, (submitUpstream q price a).2 = some price.quota := by
    intro q
    rw [submitUpstream, hanswer]
    rfl
  have hrecorded : ∀ q : Progress, submitUpstream q price a = (p', some quota) → quota = price.quota := by
    intro q hq
    have := hupstream q
    rw [hq] at this
    exact Option.some.inj this
  rw [relayTaskSubmit, hprice] at h
  simp only at h
  split at h
  · split at h
    · cases h
    split at h
    · cases h
    · exact hrecorded _ (Option.some.inj h)
  · exact hrecorded _ (Option.some.inj h)

/-- **All attempts** do. -/
theorem submitLoop_holding {attempts : List Attempt}
    (hready : ∀ a ∈ attempts, Billing.Opening.Ready r.requestId a.world.db)
    {quota : Option ℤ} (hp : Holding r p) (h : submitLoop p attempts = some (p', quota)) : Holding r p' := by
  induction attempts generalizing p with
  | nil =>
    rw [submitLoop] at h
    cases h
    exact hp
  | cons a rest ih =>
    rw [submitLoop] at h
    split at h
    · cases h
    · rename_i p₁ quota₁ hstep
      cases h
      exact relayTaskSubmit_holding (hready a List.mem_cons_self) hp hstep
    · rename_i p₁ hstep
      have hp₁ := relayTaskSubmit_holding (hready a List.mem_cons_self) hp hstep
      split at h
      · exact ih (fun b hb => hready b (List.mem_cons_of_mem a hb)) hp₁ h
      · cases h
        exact hp₁

/-! ## The hand-off -/

/-- The row names the account of the session. -/
theorem initTask_account (hp : Holding r p) (quota : ℤ) :
    fundingAccount (initTask r p quota) = sessionAccount p.session := by
  cases hs : p.session with
  | none =>
    rw [fundingAccount, if_neg]
    · rfl
    · rintro ⟨hsource, -⟩
      simp only [initTask, hs, billingSource] at hsource
      cases hsource
  | some s =>
    cases hf : s.funding with
    | wallet consumed =>
      rw [fundingAccount, if_neg]
      · simp only [sessionAccount, hf, account]
      · rintro ⟨hsource, -⟩
        simp only [initTask, hs, billingSource, hf] at hsource
        cases hsource
    | subscription f =>
      obtain ⟨hpos, hsame⟩ := hp.unsettled.id_pos s f hs hf
      have htask : (initTask r p quota).subscriptionId = f.subscriptionId := by
        simp only [initTask, hs, Option.map_some, Option.getD_some, hsame]
      rw [fundingAccount, if_pos, htask]
      · simp only [sessionAccount, hf, account]
      · refine ⟨?_, htask.symm ▸ hpos⟩
        simp only [initTask, hs, billingSource, hf]

/-- **A refund gives back the quota of the row at most.** -/
theorem refundTaskQuota_returned_le (faults : Faults) (st : Adjust.State) :
    used st.funds.world (fundingAccount st.task) -
        used (refundTaskQuota faults st).1.funds.world (fundingAccount st.task) ≤
      max 0 st.task.quota := by
  rw [refundTaskQuota]
  by_cases hzero : st.task.quota = 0
  · rw [if_pos hzero, hzero]
    simp
  rw [if_neg hzero]
  cases hadjust : taskAdjustFunding faults.fundingOk st.funds st.task (-st.task.quota) with
  | error e => simp
  | ok funds =>
    simp only [writeQuota, (taskAdjustTokenQuota_used faults funds st.task (-st.task.quota) _).2]
    by_cases hfunds : Chargeable st.funds st.task
    · rw [(taskAdjustFunding_used (by omega) hfunds hadjust).2]
      cases fundingAccount st.task with
      | user | subscription id => simp only [floored]; omega
    · -- a user that is gone gets nothing
      obtain ⟨hsub, hgone⟩ := not_or.mp hfunds
      have hsame : funds = st.funds := by
        rw [taskAdjustFunding, if_neg hsub] at hadjust
        simp only [updateUser, if_neg hgone, ite_self] at hadjust
        exact (Except.ok.inj hadjust).symm
      rw [hsame]
      omega

/-- What a refund gives back to the account of a task. -/
def returned (faults : Faults) (funds : Funds) (task : Task) : ℤ :=
  used funds.world (fundingAccount task) -
    used (refundTaskQuota faults (State.read funds task)).1.funds.world (fundingAccount task)

/-- **The stored quota is what was debited exactly when the settlement is accepted.**  For every
submission that ends with a stored task: the quota of the row is what all calls of the submission
have taken from the account of the task, and no later refund gives back more, if and only if the
account takes the whole difference between the quota of the last attempt and what the session has
pre-consumed. -/
theorem stored_quota_is_debit (sub : Submission) (task : Task) (debit : Account → ℤ)
    (hready : ∀ a ∈ sub.attempts, Billing.Opening.Ready sub.request.requestId a.world.db)
    (h : submitTask sub = some ⟨some task, debit⟩) :
    (task.quota = debit (fundingAccount task) ∧
      ∀ faults funds, returned faults funds task ≤ max 0 (debit (fundingAccount task))) ↔
    SettlementAccepted sub := by
  rw [submitTask] at h
  split at h
  · cases h
  · cases h
  rename_i p quota hloop
  have hp := submitLoop_holding hready (holding_start sub.request) hloop
  have hheld : p.debit (sessionAccount p.session) = preConsumed p.session := by
    cases hs : p.session with
    | none => exact (hp.none hs).2 _
    | some s => exact hp.some s hs
  have htakes := settleBilling_takes (w := sub.world) sub.faults p.info quota hp.final hp.unsettled
  simp only [Option.some.injEq, Outcome.mk.injEq] at h
  obtain ⟨htask, hdebit⟩ := h
  split at htask
  · cases htask
    have haccepted : SettlementAccepted sub ↔ Accepts sub.faults.fundingOk sub.world
        (quota - preConsumed p.session) (sessionAccount p.session) := by
      constructor
      · intro haccept
        exact haccept p quota hloop
      · intro haccept p' quota' hloop'
        rw [hloop] at hloop'
        cases hloop'
        exact haccept
    have hequal : (initTask sub.request p quota).quota =
        debit (fundingAccount (initTask sub.request p quota)) ↔ SettlementAccepted sub := by
      rw [initTask_account hp, haccepted, ← takes_eq_iff, ← hdebit]
      show quota = p.debit _ + _ ↔ _
      rw [hheld, htakes]
      constructor
      · intro hquota
        omega
      · intro hmoved
        omega
    refine ⟨fun hboth => hequal.mp hboth.1, fun haccept => ?_⟩
    have hquota := hequal.mpr haccept
    refine ⟨hquota, fun faults funds => ?_⟩
    rw [← hquota]
    exact refundTaskQuota_returned_le faults (State.read funds _)
  · cases htask

/-- A user with 500 in the wallet, 500 on the token and `amountUsed` of a subscription of 1000. -/
def submitWorld (amountUsed : ℤ) : World where
  userQuota := 500
  token := ⟨500, 0⟩
  db :=
    { subs := .single
        { id := 7, userId := 1, planId := 1, amountTotal := 1000, amountUsed, endTime := 2000 }
      records := .empty
      allocations := [] }

def submitCharge : ChargeFaults := ⟨some 500, true, true, true⟩

/-- An attempt priced at 40. -/
def submitAttempt (answer : Option (Option ℤ)) : Attempt where
  modelName := "sora-2"
  usingGroup := "default"
  price := some ⟨40, false, none⟩
  ctx := ⟨⟨1000, Go.Location.fixed 0, fun id => some { id }, 0⟩, 0, 0⟩
  world := submitWorld 950
  faults := ⟨true, true, true, some 500, submitCharge, submitCharge⟩
  answer
  retry := true

/-- A first channel that does not take the task, and a second one that does and adjusts its quota. -/
def sampleSubmission (adjusted : ℤ) : Submission where
  request := ⟨1, "req", "sora-2", "default", 3, false, false, "subscription_only", false⟩
  attempts := [submitAttempt none, submitAttempt (some (some adjusted))]
  world := submitWorld 990
  faults := ⟨true, true⟩
  insertOk := true

theorem submitWorld_ready (adjusted : ℤ) : ∀ a ∈ (sampleSubmission adjusted).attempts,
    Billing.Opening.Ready "req" a.world.db := by
  intro a ha
  have hworld : a.world = submitWorld 950 := by
    simp only [sampleSubmission, List.mem_cons, List.not_mem_nil, or_false] at ha
    obtain rfl | rfl := ha <;> rfl
  rw [hworld]
  exact ⟨by decide, by decide, by decide⟩

/-- The quota is adjusted to 50, for which there is room. -/
theorem stored_quota_is_debit_adjusted : ∃ task debit,
    submitTask (sampleSubmission 50) = some ⟨some task, debit⟩ ∧
      task.quota = debit (fundingAccount task) ∧
      ∀ faults funds, returned faults funds task ≤ max 0 (debit (fundingAccount task)) := by
  refine ⟨_, _, rfl,
    (stored_quota_is_debit (sampleSubmission 50) _ _ (submitWorld_ready 50) rfl).mpr ?_⟩
  intro p quota h
  cases h
  exact .inr ⟨rfl, _, rfl, by decide, by decide⟩

/-- **A task is stored with more than was debited.**  A subscription with 50 left pre-consumes 40
for a task whose quota the upstream answer moves to 90.  The settlement is refused, the row says 90,
and a refund gives 90 back. -/
theorem stored_quota_exceeds_debit :
    ((submitTask (sampleSubmission 90)).bind fun outcome => outcome.task.map fun task =>
      (task.quota, outcome.debit (fundingAccount task),
        returned ⟨true, true, true, true⟩ ⟨submitWorld 990, true⟩ task)) =
      some (90, 40, 90) := by
  decide +kernel

end OneApi.TaskBilling.Submit
