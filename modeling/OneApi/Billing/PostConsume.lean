import OneApi.Billing.Opening

/-!
# The account of a request

A request is charged to the account of its billing session, or to the wallet when it has none.
`PreConsumeBilling` opens the session, `PostConsumeQuota` moves a quota on the account and the token
without a word to the session, and `SettleBilling` ends the request: through the session when there
is one, by `PostConsumeQuota` otherwise.  What each of them takes from the account is said once
here; the token has no part in it.
-/

namespace OneApi.Billing.PostConsume

open OneApi.Lib OneApi.Subscription.Model OneApi.Subscription.PreConsume
open OneApi.Billing.Session OneApi.Billing.Session.BillingSession OneApi.Billing.Invariant
open OneApi.Billing.Opening

/-- What `GenRelayInfo` takes from the context of a request. -/
structure Request where
  userId : ℤ
  requestId : String
  originModelName : String
  usingGroup : String
  tokenId : ℤ
  isPlayground : Bool
  tokenUnlimited : Bool
  billingPreference : String
  agentPlanWalletFallbackEnabled : Bool
  deriving Repr, DecidableEq

/-- `GenRelayInfo`; nothing is pre-consumed yet. -/
def genRelayInfo (r : Request) : RelayInfo :=
  { userId := r.userId
    requestId := r.requestId
    originModelName := r.originModelName
    usingGroup := r.usingGroup
    isPlayground := r.isPlayground
    tokenUnlimited := r.tokenUnlimited
    billingPreference := r.billingPreference
    agentPlanWalletFallbackEnabled := r.agentPlanWalletFallbackEnabled }

/-- `BillingSource` of a request or a task; it is set when a session is opened. -/
inductive BillingSource
  | unset
  | wallet
  | subscription
  deriving Repr, DecidableEq

/-- What `syncRelayInfo` has left in `relayInfo.BillingSource`. -/
def billingSource : Option BillingSession → BillingSource
  | none => .unset
  | some s =>
    match s.funding with
    | .wallet _ => .wallet
    | .subscription _ => .subscription

inductive PostConsumeError
  | subscriptionIdMissing
  | billing (e : BillingError)
  deriving Repr, DecidableEq

def PostConsumeError.message (formatQuota : ℤ → String) : PostConsumeError → String
  | .subscriptionIdMissing => "subscription id is missing"
  | .billing e => e.message formatQuota

/-- The first half of `PostConsumeQuota`: the subscription or the wallet. -/
def postConsumeFunding (ok : Bool) (source : BillingSource) (subscriptionId : ℤ) (w : World)
    (quota : ℤ) : Except PostConsumeError World :=
  if source = .subscription then
    if subscriptionId = 0 then .error .subscriptionIdMissing
    else if quota = 0 then .ok w
    else (postConsumeDelta ok w subscriptionId quota).mapError fun e => .billing (.subscription e)
  else if 0 < quota then (decreaseUserQuota ok w quota).mapError .billing
  else (increaseUserQuota ok w (-quota)).mapError .billing

def postConsumeQuota (faults : SettleFaults) (source : BillingSource) (subscriptionId : ℤ)
    (isPlayground : Bool) (w : World) (quota : ℤ) : World × Except PostConsumeError Unit :=
  match postConsumeFunding faults.fundingOk source subscriptionId w quota with
  | .error e => (w, .error e)
  | .ok w₁ =>
    if isPlayground then (w₁, .ok ())
    else
      match if 0 < quota then decreaseTokenQuota faults.tokenOk w₁ quota
          else increaseTokenQuota faults.tokenOk w₁ (-quota) with
      | .error e => (w₁, .error (.billing e))
      | .ok w₂ => (w₂, .ok ())

inductive SettleBillingError
  | session (e : SettleError)
  | postConsume (e : PostConsumeError)
  deriving Repr, DecidableEq

def settleBilling (faults : SettleFaults) (w : World) (info : RelayInfo)
    (session : Option BillingSession) (actualQuota : ℤ) :
    World × Option BillingSession × Except SettleBillingError Unit :=
  match session with
  | some s =>
    let r := settle faults w s actualQuota
    (r.1, some r.2.1, r.2.2.mapError .session)
  | none =>
    let quotaDelta := actualQuota - info.finalPreConsumedQuota
    if quotaDelta = 0 then (w, none, .ok ())
    else
      let r := postConsumeQuota faults .unset info.subscriptionId info.isPlayground w quotaDelta
      (r.1, none, r.2.mapError .postConsume)

/-! ## What the account sees -/

/-- The account of a request. -/
def sessionAccount : Option BillingSession → Account
  | none => .user
  | some s => account s.funding

/-- What the session of a request has pre-consumed. -/
def preConsumed : Option BillingSession → ℤ
  | none => 0
  | some s => s.preConsumedQuota

/-- What `PreConsumeBilling` took from an account.  The subscription it charges is measured from
where its lazy reset left it. -/
def openingDebit (env : Env) (w w' : World) (result : Except TheOneError BillingSession) (acct : Account) : ℤ :=
  match result, acct with
  | .ok s, .subscription id =>
    if account s.funding = .subscription id then usedOf w'.db.subs id - usedAfterReset env w.db id
    else used w' acct - used w acct
  | _, _ => used w' acct - used w acct

/-- **What an account takes of a delta**: a wallet all of it unless the update fails, and so does a
subscription that is there, but not past zero, and nothing when its total is in the way. -/
def takes (ok : Bool) (w : World) (delta : ℤ) : Account → ℤ
  | .user => if ok then delta else 0
  | .subscription id =>
    match w.db.subs.find id with
    | none => 0
    | some sub =>
      if delta = 0 ∨ ¬ ok ∨
          (0 < sub.amountTotal ∧ sub.amountTotal < clampedUsed sub.amountUsed delta) then 0
      else clampedUsed sub.amountUsed delta - sub.amountUsed

/-- **The delta is written in full**: nothing was to be written, or the update succeeds, and a
subscription is there, is not lowered past zero and has room. -/
def Accepts (ok : Bool) (w : World) (delta : ℤ) : Account → Prop
  | .user => delta = 0 ∨ ok = true
  | .subscription id => delta = 0 ∨ (ok = true ∧ ∃ sub, w.db.subs.find id = some sub ∧
      0 ≤ sub.amountUsed + delta ∧
      (0 < sub.amountTotal → sub.amountUsed + delta ≤ sub.amountTotal))

/-- What a request that is open is known to hold. -/
structure Unsettled (session : Option BillingSession) : Prop where
  settled : ∀ s, session = some s → s.settled = false
  fundingSettled : ∀ s, session = some s → s.fundingSettled = false
  id_pos : ∀ s f, session = some s → s.funding = .subscription f →
    0 < f.subscriptionId ∧ s.relayInfo.subscriptionId = f.subscriptionId

theorem Unsettled.none : Unsettled none := by
  refine ⟨?_, ?_, ?_⟩
  · rintro s ⟨⟩
  · rintro s ⟨⟩
  · rintro s f ⟨⟩

section Opening

variable {ctx : Context} {faults : OpenFaults} {w w' : World} {info : RelayInfo} {quota : ℤ}

/-- A pre-consume that fails takes nothing. -/
theorem openingDebit_error {e : TheOneError}
    (h : preConsumeBilling ctx faults w info quota = some (w', .error e)) (acct : Account) :
    openingDebit ctx.env w w' (.error e) acct = 0 := by
  obtain ⟨token, rfl⟩ := preConsumeBilling_failed h
  have hsame := used_withToken w token acct
  cases acct with
  | user | subscription id => exact sub_eq_zero.mpr hsame

/-- One that succeeds takes what the session has pre-consumed. -/
theorem openingDebit_ok {s : BillingSession} (hready : Ready info.requestId w.db)
    (h : preConsumeBilling ctx faults w info quota = some (w', .ok s)) :
    openingDebit ctx.env w w' (.ok s) (account s.funding) = s.preConsumedQuota ∧
      Unsettled (some s) := by
  obtain ⟨base, hopen, hsettled, hbase⟩ := preConsumeBilling_opened hready h
  have hused := hopen.used_eq
  have hheld := hopen.held
  have hacc := hopen.account_eq
  refine ⟨?_, ?_, ?_, ?_⟩
  · rw [← hacc] at hused hbase
    cases hf : s.funding with
    | wallet consumed =>
      rw [hf] at hused hbase
      simp only [account, openingDebit, used] at hused hbase ⊢
      omega
    | subscription f =>
      rw [hf] at hused hbase
      simp only [account, openingDebit, hf, if_true, used] at hused hbase ⊢
      omega
  · rintro _ ⟨⟩
    exact hsettled
  · rintro _ ⟨⟩
    exact hopen.uncommitted
  · rintro _ f ⟨⟩ hf
    rw [Held, hf] at hheld
    obtain ⟨-, hid, -, row, record, hback⟩ := hheld
    exact ⟨hback.id_pos, hid⟩

end Opening

section Charges

variable {ok : Bool} {w : World} {delta : ℤ}

theorem takes_zero (acct : Account) : takes ok w 0 acct = 0 := by
  cases acct with
  | user => simp [takes]
  | subscription id =>
    rw [takes]
    split
    · rfl
    · simp

/-- A delta of a subscription is what the subscription takes of it. -/
theorem postConsumeDelta_takes {id : ℤ} (hid : 0 < id) :
    (match postConsumeDelta ok w id delta with
      | .error _ => usedOf w.db.subs id
      | .ok w' => usedOf w'.db.subs id) =
      usedOf w.db.subs id + takes ok w delta (.subscription id) := by
  by_cases hzero : delta = 0
  · rw [hzero, takes_zero, add_zero, postConsumeDelta, postConsumeUserSubscriptionDelta,
      if_neg (by omega), if_pos rfl]
    rfl
  cases hpost : postConsumeDelta ok w id delta with
  | error e =>
    have hnone : takes ok w delta (.subscription id) = 0 := by
      rw [takes]
      split
      · rfl
      rename_i sub hfind
      rw [if_pos]
      by_contra hgo
      obtain ⟨-, hok, htotal⟩ := not_or.mp hgo |>.imp_right not_or.mp
      rw [postConsumeDelta, postConsumeUserSubscriptionDelta, if_neg (by omega), if_neg hzero, hfind] at hpost
      simp only [ite_eq_clampedUsed, if_neg htotal, if_pos (not_not.mp hok)] at hpost
      cases hpost
    rw [hnone, add_zero]
  | ok w' =>
    have hmax := usedOf_postConsume hzero hpost
    obtain ⟨db, hdb, rfl⟩ := postConsumeDelta_ok hpost
    obtain ⟨hdelta, _⟩ | ⟨sub, hfind, htotal, _⟩ := postConsumeUserSubscriptionDelta_ok hdb
    · exact absurd hdelta hzero
    · have hrow : usedOf w.db.subs id = sub.amountUsed := by
        rw [usedOf, hfind, Option.map_some, Option.getD_some]
      have hok : ok = true := by
        cases ok with
        | true => rfl
        | false => exact absurd hdb (postConsumeUserSubscriptionDelta_failed hzero)
      show usedOf db.subs id = _
      rw [show usedOf db.subs id = _ from hmax, takes, hfind]
      simp only
      rw [if_neg, hrow, clampedUsed]
      · omega
      · rintro (h | h | ⟨hpos, hlt⟩)
        · exact hzero h
        · exact h hok
        · have := htotal hpos
          omega

/-- A settlement moves the account by what it takes of the delta. -/
theorem fundingSettle_takes {funding : FundingSource}
    (hid : ∀ f, funding = .subscription f → 0 < f.subscriptionId) :
    (match funding.settle ok w delta with
      | .error _ => used w (account funding)
      | .ok w' => used w' (account funding)) =
      used w (account funding) + takes ok w delta (account funding) := by
  by_cases hzero : delta = 0
  · rw [hzero, takes_zero, add_zero]
    cases funding with
    | wallet consumed | subscription f => simp only [FundingSource.settle, if_true]
  cases funding with
  | wallet consumed =>
    simp only [FundingSource.settle, if_neg hzero, userDelta_eq, account, takes]
    cases ok with
    | true =>
      show -(w.userQuota - delta) = -w.userQuota + delta
      omega
    | false => simp
  | subscription f =>
    simp only [FundingSource.settle, if_neg hzero, account, used]
    rw [← postConsumeDelta_takes (hid f rfl)]
    cases postConsumeDelta ok w f.subscriptionId delta with
    | error e | ok w' => rfl

theorem settle_takes {s : BillingSession} (faults : SettleFaults) (actualQuota : ℤ) (h : Unsettled (some s)) :
    used (settle faults w s actualQuota).1 (account s.funding) =
      used w (account s.funding) + takes faults.fundingOk w (actualQuota - s.preConsumedQuota) (account s.funding) := by
  rw [settle, h.settled s rfl, h.fundingSettled s rfl]
  simp only [Bool.false_eq_true, if_false]
  by_cases hzero : actualQuota - s.preConsumedQuota = 0
  · rw [if_pos hzero, hzero, takes_zero, add_zero]
  · rw [if_neg hzero, ← fundingSettle_takes fun f hf => (h.id_pos s f rfl hf).1]
    cases s.funding.settle faults.fundingOk w (actualQuota - s.preConsumedQuota) with
    | error e => rfl
    | ok w₁ =>
      simp only
      split
      · rfl
      · rename_i w₂ htoken
        rw [settleToken_ok htoken, used_withToken]

/-- The token has no part in what `PostConsumeQuota` does to an account. -/
theorem postConsumeQuota_used (faults : SettleFaults) (source : BillingSource)
    (subscriptionId quota : ℤ) (isPlayground : Bool) (acct : Account) :
    used (postConsumeQuota faults source subscriptionId isPlayground w quota).1 acct =
      match postConsumeFunding faults.fundingOk source subscriptionId w quota with
      | .error _ => used w acct
      | .ok w₁ => used w₁ acct := by
  rw [postConsumeQuota]
  cases postConsumeFunding faults.fundingOk source subscriptionId w quota with
  | error e => rfl
  | ok w₁ =>
    simp only [tokenDelta_eq]
    split
    · rfl
    · cases faults.tokenOk with
      | false => rfl
      | true => exact used_withToken w₁ _ acct

variable {session : Option BillingSession}

/-- **A charge outside the session** moves the account of the request by what it takes. -/
theorem postConsumeQuota_takes (faults : SettleFaults)
    (subscriptionId quota : ℤ) (isPlayground : Bool) (h : Unsettled session)
    (hid : ∀ s, session = some s → subscriptionId = s.relayInfo.subscriptionId) :
    used (postConsumeQuota faults (billingSource session) subscriptionId isPlayground w quota).1
        (sessionAccount session) =
      used w (sessionAccount session) + takes faults.fundingOk w quota (sessionAccount session) := by
  have huser : ∀ source : BillingSource, source ≠ .subscription →
      (match postConsumeFunding faults.fundingOk source subscriptionId w quota with
        | .error _ => used w .user
        | .ok w₁ => used w₁ .user) = used w .user + takes faults.fundingOk w quota .user := by
    intro source hsource
    have hmap : postConsumeFunding faults.fundingOk source subscriptionId w quota =
        (if 0 < quota then decreaseUserQuota faults.fundingOk w quota
          else increaseUserQuota faults.fundingOk w (-quota)).mapError .billing := by
      rw [postConsumeFunding, if_neg hsource]
      split <;> rfl
    rw [hmap, userDelta_eq, takes]
    cases faults.fundingOk with
    | true =>
      show -(w.userQuota - quota) = -w.userQuota + quota
      omega
    | false => exact (add_zero _).symm
  rw [postConsumeQuota_used]
  cases session with
  | none => exact huser .unset (by decide)
  | some s =>
    cases hf : s.funding with
    | wallet consumed =>
      simp only [billingSource, sessionAccount, hf, account]
      exact huser .wallet (by decide)
    | subscription f =>
      obtain ⟨hpos, hsame⟩ := h.id_pos s f rfl hf
      have hsub : subscriptionId = f.subscriptionId := (hid s rfl).trans hsame
      simp only [billingSource, sessionAccount, hf, account, postConsumeFunding, hsub, used, if_true, if_neg hpos.ne']
      by_cases hzero : quota = 0
      · rw [if_pos hzero, hzero, takes_zero, add_zero]
      · rw [if_neg hzero, ← postConsumeDelta_takes hpos]
        cases postConsumeDelta faults.fundingOk w f.subscriptionId quota with
        | error e | ok w' => rfl

/-- **Ending a request** moves its account by what it takes of the quota that was not
pre-consumed. -/
theorem settleBilling_takes (faults : SettleFaults) (info : RelayInfo)
    (actualQuota : ℤ) (hinfo : info.finalPreConsumedQuota = 0) (h : Unsettled session) :
    used (settleBilling faults w info session actualQuota).1 (sessionAccount session) =
      used w (sessionAccount session) +
        takes faults.fundingOk w (actualQuota - preConsumed session) (sessionAccount session) := by
  cases session with
  | some s => exact settle_takes faults actualQuota h
  | none =>
    rw [settleBilling]
    simp only [hinfo, preConsumed, sub_zero]
    by_cases hzero : actualQuota = 0
    · rw [if_pos hzero, hzero, takes_zero, add_zero]
    · rw [if_neg hzero]
      refine postConsumeQuota_takes faults _ _ _ h ?_
      rintro s ⟨⟩

/-- An account takes the whole delta exactly when it accepts it. -/
theorem takes_eq_iff (acct : Account) : takes ok w delta acct = delta ↔ Accepts ok w delta acct := by
  by_cases hzero : delta = 0
  · subst hzero
    refine iff_of_true (takes_zero acct) ?_
    cases acct with
    | user | subscription id => exact .inl rfl
  cases acct with
  | user =>
    simp only [takes, Accepts, hzero, false_or]
    cases ok with
    | true => simp
    | false => simp [Ne.symm hzero]
  | subscription id =>
    simp only [takes, Accepts, hzero, false_or]
    cases hfind : w.db.subs.find id with
    | none => simp [Ne.symm hzero]
    | some sub =>
      simp only [Option.some.injEq, exists_eq_left', clampedUsed]
      cases ok with
      | false => simp [Ne.symm hzero]
      | true =>
        simp only [not_true_eq_false, false_or, true_and]
        constructor
        · intro h
          split at h
          · exact absurd h.symm hzero
          · omega
        · intro h
          rw [if_neg (by omega)]
          omega

end Charges

end OneApi.Billing.PostConsume
