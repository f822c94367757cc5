import OneApi.Billing.Invariant

/-!
# Opening a session

A session that `NewBillingSession` returns is open with nothing leaked, and its debit is the quota
it has pre-consumed.  When it returns an error, both balances are as they were: the token is rolled
back when the funding source refuses, and the second funding source it may try starts from what
the first one left.
-/

namespace OneApi.Billing.Opening

open OneApi.Lib OneApi.Subscription.Model OneApi.Subscription.PreConsume
open OneApi.Subscription.QuotaBound OneApi.Subscription.RefundOnce OneApi.Billing.Session
open OneApi.Billing.Session.BillingSession OneApi.Billing.Invariant

/-- What holds of the tables when a request with an id of its own arrives. -/
structure Ready (requestId : String) (db : DB) : Prop where
  fresh : db.records.find requestId = none
  id_pos : ∀ sub ∈ db.subs.rows, 0 < sub.id
  used_nonneg : ∀ sub ∈ db.subs.rows, 0 ≤ sub.amountUsed

/-- The subscription behind an account, if it is one, is not reset under its own plan: the lazy
reset of a pre-consume leaves its quota used. -/
def NotReset (env : Env) (db : DB) (paying : Account) : Prop :=
  ∀ id, paying = .subscription id → ∀ c plan sub, db.subs.find id = some c → env.plans c.planId = some plan →
    maybeResetUserSubscriptionWithPlanTx env.fuel env.loc c plan env.now = some sub → sub.amountUsed = c.amountUsed

/-- The quota used of a subscription once the lazy reset of a pre-consume is made. -/
def usedAfterReset (env : Env) (db : DB) (id : ℤ) : ℤ :=
  match db.subs.find id with
  | none => 0
  | some c =>
    match (env.plans c.planId).bind fun plan =>
        maybeResetUserSubscriptionWithPlanTx env.fuel env.loc c plan env.now with
    | none => c.amountUsed
    | some sub => sub.amountUsed

theorem usedAfterReset_of_notReset {env : Env} {db : DB} {id : ℤ} (h : NotReset env db (.subscription id)) :
    usedAfterReset env db id = usedOf db.subs id := by
  rw [usedAfterReset, usedOf]
  cases hfind : db.subs.find id with
  | none => rfl
  | some c =>
    cases hsub : (env.plans c.planId).bind fun plan =>
        maybeResetUserSubscriptionWithPlanTx env.fuel env.loc c plan env.now with
    | none => simp only [hsub, Option.map_some, Option.getD_some]
    | some sub =>
      obtain ⟨plan, hplan, hreset⟩ := Option.bind_eq_some_iff.mp hsub
      simp only [hsub, Option.map_some, Option.getD_some]
      exact h id rfl c plan sub hfind hplan hreset

/-! ## The charge of a subscription -/

section Subscription

variable {env : Env} {ok : Bool} {db db' : DB} {requestId modelName usingGroup : String}
  {userId amount : ℤ} {res : SubscriptionPreConsumeResult}

variable {t : Table UserSubscription UserSubscription.id} {sub : UserSubscription}

/-- The row a selection picks has a positive id, a quota used that is not negative, and room. -/
theorem selectSubscription_row (hready : Ready requestId db)
    (h : selectSubscription env db userId modelName usingGroup amount = some (.ok (t, sub))) :
    0 < sub.id ∧ 0 ≤ sub.amountUsed ∧ subscriptionFits amount sub = true := by
  obtain ⟨fits, cands, hc, hfits, hscan⟩ := selectSubscription_ok h
  have hrows : ∀ c ∈ db.subs.rows, 0 < c.id ∧ 0 ≤ c.amountUsed := fun c hc =>
    ⟨hready.id_pos c hc, hready.used_nonneg c hc⟩
  have hreset : ∀ c plan s, 0 < c.id ∧ 0 ≤ c.amountUsed →
      maybeResetUserSubscriptionWithPlanTx env.fuel env.loc c plan env.now = some s → 0 < s.id ∧ 0 ≤ s.amountUsed := by
    intro c plan s hc hs
    have hid := maybeReset_id hs
    obtain ⟨_, _, -, hused⟩ := maybeReset_cases hs
    omega
  obtain ⟨hrow, hfit⟩ := (scan_preserves hreset hrows
    (fun c hmem => hrows c (mem_activeSubscriptions.mp (hc c hmem)).1) hscan).2 sub rfl
  exact ⟨hrow.1, hrow.2, hfits sub hfit⟩

/-- The row is picked with the quota used that its lazy reset leaves. -/
theorem selectSubscription_used
    (h : selectSubscription env db userId modelName usingGroup amount = some (.ok (t, sub))) :
    sub.amountUsed = usedAfterReset env db sub.id := by
  obtain ⟨fits, cands, hc, -, hscan⟩ := selectSubscription_ok h
  obtain ⟨c, hmem, plan, hplan, hreset⟩ := scan_picked hscan
  have hrow : c ∈ db.subs.rows := (mem_activeSubscriptions.mp (hc c hmem)).1
  rw [usedAfterReset, maybeReset_id hreset, Table.find_of_mem hrow]
  simp only [hplan, Option.bind_some, hreset]

/-- **A pre-consume of a fresh request** leaves a row and a record that back the session. -/
theorem preConsumeUserSubscription_backing (f : SubscriptionFunding) (hready : Ready f.requestId db)
    (h : preConsumeUserSubscription env ok db f.requestId f.userId f.modelName f.usingGroup
      f.amount = some (.ok (db', res))) :
    res.preConsumed = f.amount ∧ 0 < f.amount ∧ ∃ sub record, Backing db' { f with
        subscriptionId := res.userSubscriptionId, preConsumed := res.preConsumed } sub record ∧
      f.amount ≤ sub.amountUsed ∧
      sub.amountUsed = usedAfterReset env db res.userSubscriptionId + f.amount := by
  obtain ⟨hpos, ⟨existing, hfind, -⟩ | ⟨hreq, -, t, sub, records, hsel, hins, rfl, rfl⟩⟩ :=
    preConsumeUserSubscription_ok h
  · rw [hready.fresh] at hfind
    cases hfind
  · obtain ⟨hid, hused, hfit⟩ := selectSubscription_row hready hsel
    have hroom : 0 < sub.amountTotal → sub.amountUsed + f.amount ≤ sub.amountTotal := by
      intro htotal
      have := of_decide_eq_true hfit
      omega
    have hfind : t.find sub.id = some sub := selectSubscription_find hsel
    have hcharged := Table.find_save_self (r := { sub with amountUsed := sub.amountUsed + f.amount }) hfind
    refine ⟨rfl, hpos, { sub with amountUsed := sub.amountUsed + f.amount }, _,
      ⟨hcharged, ⟨?_, hroom⟩, Table.find_insert_self hins, ⟨hreq, hpos, hid⟩, rfl, rfl, rfl⟩, ?_, ?_⟩
    · show 0 ≤ sub.amountUsed + f.amount
      omega
    · show f.amount ≤ sub.amountUsed + f.amount
      omega
    · exact congrArg (· + f.amount) (selectSubscription_used hsel)

end Subscription

/-! ## Pre-consume -/

section PreConsume

variable {ctx : Context} {faults : ChargeFaults} {w w' : World} {s s' : BillingSession} {quota : ℤ}

/-- What is pre-consumed once a trusted request has been let through. -/
def effectiveQuota (ctx : Context) (s : BillingSession) (quota : ℤ) : ℤ :=
  if s.shouldTrust ctx then 0 else quota

/-- The balances with a quota taken from the token. -/
def chargeToken (w : World) (info : RelayInfo) (quota : ℤ) : World :=
  { w with token := ⟨w.token.remainQuota - tokenCharge info quota, w.token.usedQuota + tokenCharge info quota⟩ }

/-- **What a pre-consume does**: the token is refused, or it is charged, unless there is nothing to
charge, and the funding source comes next. -/
theorem preConsume_cases {r : Except TheOneError BillingSession} (h : preConsume ctx faults w s quota = some (w', r)) :
    (w' = w ∧ ∃ e, r = .error e) ∨
      ∃ w₁ token, preConsumeFunding ctx faults w₁
          { s with trusted := s.shouldTrust ctx, tokenConsumed := token }
            (effectiveQuota ctx s quota) = some (w', r) ∧
        (0 < effectiveQuota ctx s quota ∧ token = effectiveQuota ctx s quota ∧
            w₁ = chargeToken w s.relayInfo (effectiveQuota ctx s quota) ∨
          ¬ 0 < effectiveQuota ctx s quota ∧ token = s.tokenConsumed ∧ w₁ = w) := by
  rw [preConsume] at h
  simp only [show (if s.shouldTrust ctx then 0 else quota) = effectiveQuota ctx s quota from rfl] at h
  split at h
  · rename_i hpos
    split at h
    · cases h
      exact .inl ⟨rfl, _, rfl⟩
    · rename_i w₁ htoken
      exact .inr ⟨w₁, _, h, .inl ⟨hpos, rfl, preConsumeTokenQuota_ok htoken⟩⟩
  · rename_i hpos
    exact .inr ⟨w, s.tokenConsumed, h, .inr ⟨hpos, rfl, rfl⟩⟩

theorem preConsumeFunding_ok {effective : ℤ} (h : preConsumeFunding ctx faults w s effective = some (w', .ok s')) :
    ∃ funding, s.funding.preConsume ctx.env faults.fundingOk w effective = some (.ok (w', funding)) ∧
      s' = { s with funding, preConsumedQuota := effective }.syncRelayInfo := by
  rw [preConsumeFunding] at h
  split at h
  · cases h
  · cases h
  · rename_i w₁ funding hpre
    cases h
    exact ⟨funding, hpre, rfl⟩

variable {e : TheOneError}

theorem preConsumeFunding_failed {effective : ℤ}
    (h : preConsumeFunding ctx faults w s effective = some (w', .error e)) :
    w' = rollbackToken faults.rollbackOk w s := by
  rw [preConsumeFunding] at h
  split at h
  · cases h
  · cases h
    rfl
  · cases h

/-- **A pre-consume that succeeds** has charged the token and then the funding source. -/
theorem preConsume_ok (hfresh : s.tokenConsumed = 0) (hquota : 0 ≤ quota)
    (h : preConsume ctx faults w s quota = some (w', .ok s')) :
    ∃ funding, s.funding.preConsume ctx.env faults.fundingOk
        (chargeToken w s.relayInfo (effectiveQuota ctx s quota)) (effectiveQuota ctx s quota) =
          some (.ok (w', funding)) ∧
      s' = { s with
        trusted := s.shouldTrust ctx, tokenConsumed := effectiveQuota ctx s quota, funding,
        preConsumedQuota := effectiveQuota ctx s quota }.syncRelayInfo := by
  obtain ⟨-, e, he⟩ | ⟨w₁, token, hfund, hcase⟩ := preConsume_cases h
  · cases he
  obtain ⟨funding, hpre, hs'⟩ := preConsumeFunding_ok hfund
  obtain ⟨-, rfl, rfl⟩ | ⟨hpos, rfl, rfl⟩ := hcase
  · exact ⟨funding, hpre, hs'⟩
  · -- nothing to pre-consume: the token is not touched
    have heff : 0 ≤ effectiveQuota ctx s quota := by
      rw [effectiveQuota]
      split <;> omega
    have hzero : effectiveQuota ctx s quota = 0 := by omega
    have hsame : chargeToken w₁ s.relayInfo (effectiveQuota ctx s quota) = w₁ := by
      rw [hzero, chargeToken, tokenCharge, ite_self, sub_zero, add_zero]
    rw [hsame]
    rw [hzero] at hpre hs' ⊢
    rw [hfresh] at hs'
    exact ⟨funding, hpre, hs'⟩

theorem rollbackToken_token (ok : Bool) : ∃ token, rollbackToken ok w s = { w with token } := by
  rw [rollbackToken]
  split
  · split
    · rename_i hback
      exact ⟨_, (quotaUpdate_ok hback).2.2⟩
    · exact ⟨w.token, rfl⟩
  · exact ⟨w.token, rfl⟩

/-- A rollback that succeeds gives back what was taken from the token. -/
theorem rollbackToken_chargeToken (hpos : 0 < s.tokenConsumed) :
    rollbackToken true (chargeToken w s.relayInfo s.tokenConsumed) s = w := by
  rw [rollbackToken]
  by_cases hplay : s.relayInfo.isPlayground
  · simp only [chargeToken, tokenCharge, hplay, not_true_eq_false, and_false, if_false, if_true, sub_zero, add_zero]
  · rw [if_pos ⟨hpos, hplay⟩, increaseTokenQuota, quotaUpdate_true hpos.le]
    simp only [chargeToken, tokenCharge, hplay, Bool.false_eq_true, if_false, sub_add_cancel, add_sub_cancel_right]

/-- A pre-consume that fails leaves everything but the token as it was. -/
theorem preConsume_failed_token (h : preConsume ctx faults w s quota = some (w', .error e)) :
    ∃ token, w' = { w with token } := by
  obtain ⟨rfl, -⟩ | ⟨w₁, token, hfund, hcase⟩ := preConsume_cases h
  · exact ⟨w'.token, rfl⟩
  obtain ⟨back, hback⟩ := rollbackToken_token faults.rollbackOk
  rw [preConsumeFunding_failed hfund, hback]
  obtain ⟨-, -, rfl⟩ | ⟨-, -, rfl⟩ := hcase
  · exact ⟨back, rfl⟩
  · exact ⟨back, rfl⟩

/-- **A pre-consume that fails leaves the balances as they were**, when the rollback succeeds. -/
theorem preConsume_failed (hroll : faults.rollbackOk = true)
    (hfresh : s.tokenConsumed = 0) (h : preConsume ctx faults w s quota = some (w', .error e)) : w' = w := by
  obtain ⟨rfl, -⟩ | ⟨w₁, token, hfund, hcase⟩ := preConsume_cases h
  · rfl
  rw [preConsumeFunding_failed hfund, hroll]
  obtain ⟨hpos, rfl, rfl⟩ | ⟨-, rfl, rfl⟩ := hcase
  · exact rollbackToken_chargeToken
      (s := { s with trusted := s.shouldTrust ctx, tokenConsumed := effectiveQuota ctx s quota }) hpos
  · rw [rollbackToken, if_neg (by simp [hfresh])]

end PreConsume

/-! ## The two branches -/

section Branches

variable {ctx : Context} {faults : ChargeFaults} {w w' : World} {info : RelayInfo}
  {s : BillingSession} {quota : ℤ}

variable {userQuota : Option ℤ}

/-- **A wallet session is open**, down by what it pre-consumed. -/
theorem tryWallet_opened (hquota : 0 ≤ quota) (h : tryWallet ctx userQuota faults w info quota = some (w', .ok s)) :
    Open ⟨.user, -w.userQuota, w.token.remainQuota⟩ 0 w' s ∧ s.settled = false ∧ s.refunded = false := by
  rw [tryWallet.eq_def] at h
  split at h
  · cases h
  rename_i userQuota
  split at h
  · cases h
  split at h
  · cases h
  obtain ⟨funding, hpre, rfl⟩ := preConsume_ok rfl hquota h
  have heff : 0 ≤ effectiveQuota ctx
      ⟨{ info with userQuota }, .wallet 0, 0, 0, 0, false, false, false, false⟩ quota := by
    rw [effectiveQuota]
    split <;> omega
  revert hpre heff
  generalize effectiveQuota ctx ⟨{ info with userQuota }, .wallet 0, 0, 0, 0, false, false, false, false⟩ quota = eff
  intro hpre heff
  simp only [FundingSource.preConsume] at hpre
  refine ⟨?_, syncRelayInfo_settled, syncRelayInfo_refunded⟩
  split at hpre
  · cases hpre
    refine ⟨Funded.sync ⟨rfl, rfl, heff, le_rfl, le_rfl, rfl, ?_, ?_⟩, ?_⟩
    · simp only [used, chargeToken]
      omega
    · show (0 : ℤ) = eff + 0
      omega
    · rw [tokenCharge_syncRelayInfo, syncRelayInfo_preConsumedQuota]
      rfl
  · cases hdec : decreaseUserQuota faults.fundingOk (chargeToken w { info with userQuota } eff) eff with
    | error e => rw [hdec] at hpre; cases hpre
    | ok w₁ =>
      rw [hdec] at hpre
      cases hpre
      obtain ⟨-, -, rfl⟩ := quotaUpdate_ok hdec
      refine ⟨Funded.sync ⟨rfl, rfl, heff, le_rfl, le_rfl, rfl, ?_, (add_zero eff).symm⟩, ?_⟩
      · simp only [used, chargeToken]
        omega
      · rw [tokenCharge_syncRelayInfo, syncRelayInfo_preConsumedQuota]
        rfl

variable {e : TheOneError}

theorem tryWallet_failed_token (h : tryWallet ctx userQuota faults w info quota = some (w', .error e)) :
    ∃ token, w' = { w with token } := by
  rw [tryWallet.eq_def] at h
  split at h
  · cases h
    exact ⟨w.token, rfl⟩
  split at h
  · cases h
    exact ⟨w.token, rfl⟩
  split at h
  · cases h
    exact ⟨w.token, rfl⟩
  exact preConsume_failed_token h

theorem tryWallet_failed (hroll : faults.rollbackOk = true)
    (h : tryWallet ctx userQuota faults w info quota = some (w', .error e)) : w' = w := by
  rw [tryWallet.eq_def] at h
  split at h
  · cases h
    rfl
  split at h
  · cases h
    rfl
  split at h
  · cases h
    rfl
  exact preConsume_failed hroll rfl h

theorem subConsume_pos (quota : ℤ) : 0 < subConsume quota := by
  rw [subConsume]
  split <;> omega

/-- A subscription is never trusted. -/
theorem effectiveQuota_subscription {f : SubscriptionFunding} (h : s.funding = .subscription f) :
    effectiveQuota ctx s quota = quota := by
  have hfalse : s.shouldTrust ctx = false := by
    rw [shouldTrust, h]
    simp
  rw [effectiveQuota, hfalse]
  rfl

/-- **A subscription session is open**, down by what it pre-consumed from where a lazy reset at
that moment has left the row. -/
theorem trySubscription_opened (hready : Ready info.requestId w.db)
    (h : trySubscription ctx faults w info quota = some (w', .ok s)) :
    ∃ id, Open ⟨.subscription id, usedAfterReset ctx.env w.db id, w.token.remainQuota⟩ 0 w' s ∧
      s.settled = false ∧ s.refunded = false := by
  have hpos := subConsume_pos quota
  rw [trySubscription] at h
  obtain ⟨funding, hpre, rfl⟩ := preConsume_ok rfl hpos.le h
  rw [effectiveQuota_subscription rfl] at hpre ⊢
  simp only [FundingSource.preConsume] at hpre
  split at hpre
  · cases hpre
  · cases hpre
  · rename_i db res hcharge
    cases hpre
    obtain ⟨hamount, -, sub, record, hback, hle, hreset⟩ :=
      preConsumeUserSubscription_backing
        ⟨info.requestId, info.userId, info.originModelName, info.usingGroup, subConsume quota, 0, 0⟩
        hready hcharge
    have hused := hback.usedOf_eq
    simp only at hamount hle hreset hused
    refine ⟨res.userSubscriptionId, ⟨⟨rfl, rfl, hpos.le, le_rfl, le_rfl, rfl, ?_, ?_, rfl,
      by simp only; omega, sub, record, hback⟩, rfl⟩, rfl, rfl⟩
    · show usedOf db.subs res.userSubscriptionId = _
      rw [hused, syncRelayInfo_preConsumedQuota]
      simp only
      omega
    · show res.preConsumed + 0 = subConsume quota
      omega

theorem trySubscription_failed (hroll : faults.rollbackOk = true)
    (h : trySubscription ctx faults w info quota = some (w', .error e)) : w' = w :=
  preConsume_failed hroll rfl h

end Branches

/-! ## The choice between them -/

section Choice

variable (ctx : Context) (faults : OpenFaults) (w : World) (info : RelayInfo) (quota : ℤ)

/-- An answer of `NewBillingSession` for these balances: an error leaves them, a session is one of
the two branches run on them. -/
def Answers (answer : Option (World × Except TheOneError BillingSession)) : Prop :=
  ∀ w' result, answer = some (w', result) →
    match result with
    | .error _ => w' = w
    | .ok s =>
      tryWallet ctx faults.userQuota faults.wallet w info quota = some (w', .ok s) ∨
        trySubscription ctx faults.subscription w info quota = some (w', .ok s)

/-- The same when a failure may leave any of the balances in `left`. -/
def AnswersFrom (left : World → Prop) (answer : Option (World × Except TheOneError BillingSession)) : Prop :=
  ∀ w' result, answer = some (w', result) →
    match result with
    | .error _ => left w'
    | .ok s => ∃ w₀, left w₀ ∧
        (tryWallet ctx faults.userQuota faults.wallet w₀ info quota = some (w', .ok s) ∨
          trySubscription ctx faults.subscription w₀ info quota = some (w', .ok s))

/-- The two branches, when they fail on balances in `left`, lead to balances in `left`. -/
structure FailsWithin (left : World → Prop) : Prop where
  wallet : ∀ {w₀ w' e}, left w₀ →
    tryWallet ctx faults.userQuota faults.wallet w₀ info quota = some (w', .error e) → left w'
  subscription : ∀ {w₀ w' e}, left w₀ →
    trySubscription ctx faults.subscription w₀ info quota = some (w', .error e) → left w'

variable {ctx faults w info quota} {left : World → Prop}

theorem answers_error (hw : left w) (e : TheOneError) :
    AnswersFrom ctx faults info quota left (some (w, .error e)) := by
  intro w' result h
  cases h
  exact hw

variable (hleft : FailsWithin ctx faults info quota left)

include hleft in
theorem answers_wallet (hw : left w) :
    AnswersFrom ctx faults info quota left (tryWallet ctx faults.userQuota faults.wallet w info quota) := by
  intro w' result h
  cases result with
  | error e => exact hleft.wallet hw h
  | ok s => exact ⟨w, hw, .inl h⟩

include hleft in
theorem answers_subscription (hw : left w) :
    AnswersFrom ctx faults info quota left (trySubscription ctx faults.subscription w info quota) := by
  intro w' result h
  cases result with
  | error e => exact hleft.subscription hw h
  | ok s => exact ⟨w, hw, .inr h⟩

theorem answers_onInsufficient {first : Option (World × Except TheOneError BillingSession)}
    {second : World → TheOneError → Option (World × Except TheOneError BillingSession)}
    (hfirst : AnswersFrom ctx faults info quota left first)
    (hsecond : ∀ w₁ e, left w₁ → AnswersFrom ctx faults info quota left (second w₁ e)) :
    AnswersFrom ctx faults info quota left (onInsufficient first second) := by
  intro w' result h
  rw [onInsufficient.eq_def] at h
  split at h
  · rename_i w₁ e
    -- the second branch starts from what the first one left when it failed
    have hw₁ : left w₁ := hfirst w₁ (.error e) rfl
    split at h
    · exact hsecond w₁ e hw₁ w' result h
    · cases h
      exact hw₁
  · exact hfirst w' result h

include hleft in
theorem preConsumeBilling_answersFrom (hw : left w) :
    AnswersFrom ctx faults info quota left (preConsumeBilling ctx faults w info quota) := by
  rw [preConsumeBilling]
  split
  · exact answers_error hw _
  split
  · exact answers_error hw _
  rw [newBillingSession]
  split
  · exact answers_error hw _
  · refine answers_onInsufficient (answers_subscription hleft hw) fun w₁ e hw₁ => ?_
    split
    · exact answers_wallet hleft hw₁
    · exact answers_error hw₁ e
  · split
    · exact answers_subscription hleft hw
    · exact answers_wallet hleft hw
    · exact answers_onInsufficient (answers_wallet hleft hw) fun _ _ => answers_subscription hleft
    · rw [subscriptionFirst]
      split
      · exact answers_error hw _
      · exact answers_wallet hleft hw
      · refine answers_onInsufficient (answers_subscription hleft hw) fun w₁ e hw₁ => ?_
        split
        · exact answers_error hw₁ _
        · exact answers_wallet hleft hw₁
        · exact answers_error hw₁ e

/-- **Every answer of `PreConsumeBilling`**, when the rollbacks of its charges succeed. -/
theorem preConsumeBilling_answers (hwallet : faults.wallet.rollbackOk = true)
    (hsub : faults.subscription.rollbackOk = true) :
    Answers ctx faults w info quota (preConsumeBilling ctx faults w info quota) := by
  have hleft : FailsWithin ctx faults info quota (· = w) := by
    refine ⟨?_, ?_⟩
    · rintro w₀ w' e rfl h
      exact tryWallet_failed hwallet h
    · rintro w₀ w' e rfl h
      exact trySubscription_failed hsub h
  intro w' result h
  have hanswer := preConsumeBilling_answersFrom hleft rfl w' result h
  cases result with
  | error e => exact hanswer
  | ok s =>
    obtain ⟨_, rfl, hbranch⟩ := hanswer
    exact hbranch

variable {w' : World}

/-- A session is only opened for a quota that is not negative. -/
theorem preConsumeBilling_quota_nonneg {s : BillingSession}
    (h : preConsumeBilling ctx faults w info quota = some (w', .ok s)) : 0 ≤ quota := by
  rw [preConsumeBilling] at h
  split at h
  · cases h
  split at h
  · cases h
  · omega

/-- The balances up to the token, which a rollback that fails leaves charged. -/
def SameFunding (w w' : World) : Prop := ∃ token, w' = { w with token }

theorem SameFunding.trans {w₁ w₂ w₃ : World} (h : SameFunding w₁ w₂) (h' : SameFunding w₂ w₃) : SameFunding w₁ w₃ := by
  obtain ⟨_, rfl⟩ := h
  obtain ⟨token, rfl⟩ := h'
  exact ⟨token, rfl⟩

theorem failsWithin_sameFunding : FailsWithin ctx faults info quota (SameFunding w) := by
  refine ⟨?_, ?_⟩
  · intro w₀ w' e hw h
    exact hw.trans (tryWallet_failed_token h)
  · intro w₀ w' e hw h
    exact hw.trans (preConsume_failed_token h)

theorem preConsumeBilling_failed {e : TheOneError}
    (h : preConsumeBilling ctx faults w info quota = some (w', .error e)) : SameFunding w w' :=
  preConsumeBilling_answersFrom failsWithin_sameFunding ⟨w.token, rfl⟩ w' (.error e) h

/-- **A session of `PreConsumeBilling`**, whichever of its updates fail, is open and down by what
it pre-consumed: a wallet from its balance, a subscription from what its lazy reset left. -/
theorem preConsumeBilling_opened {s : BillingSession}
    (hready : Ready info.requestId w.db)
    (h : preConsumeBilling ctx faults w info quota = some (w', .ok s)) :
    ∃ base, Open base 0 w' s ∧ s.settled = false ∧ base.used = match base.account with
        | .user => -w.userQuota
        | .subscription id => usedAfterReset ctx.env w.db id := by
  have hquota := preConsumeBilling_quota_nonneg h
  obtain ⟨_, ⟨token, rfl⟩, hw | hs⟩ :=
    preConsumeBilling_answersFrom failsWithin_sameFunding ⟨w.token, rfl⟩ w' (.ok s) h
  · obtain ⟨hopen, hsettled, -⟩ := tryWallet_opened hquota hw
    exact ⟨_, hopen, hsettled, rfl⟩
  · obtain ⟨id, hopen, hsettled, -⟩ :=
      trySubscription_opened (w := { w with token }) hready hs
    exact ⟨_, hopen, hsettled, rfl⟩

end Choice

end OneApi.Billing.Opening
