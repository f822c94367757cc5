import OneApi.Subscription.RefundOnce

/-!
# Billing sessions

`BillingSession` carries one request through pre-consume, top-ups (`Reserve`), settlement and
refund.  The quota comes from a funding source, the wallet or a subscription, and is mirrored on
the token of the request unless the request comes from the playground.

The model is the code of `service/billing_session.go` and `service/funding_source.go` on three
balances: the quota of the user, the quota of the token and the subscription tables.  Each
database update may fail; which ones do is an input (`ChargeFaults`, `SettleFaults`,
`RefundJobFaults`).  `Refund` only marks the session and starts a job, so a session comes with the
job that is still to run, and running it is a call of its own.
-/

namespace OneApi.Billing.Session

open OneApi.Lib OneApi.Lib.Go OneApi.Subscription.Model
open OneApi.Subscription.PreConsume OneApi.Subscription.RefundOnce

/-! ## Errors -/

inductive BillingError
  | negativeQuota
  | tokenQuotaNotEnough (remain need : ℤ)
  | userQuotaExhausted (quota : ℤ)
  | userQuotaNotEnough (quota need : ℤ)
  | preConsumeNegative (quota : ℤ)
  | quotaClamp (text : String)
  | subscription (e : SubscriptionError)
  | subscriptionUnavailable (e : SubscriptionError)
  | database
  deriving Repr, DecidableEq

/-- The text of each error, for the display format of quotas in force. -/
def BillingError.message (formatQuota : ℤ → String) : BillingError → String
  | .negativeQuota => "quota 不能为负数！"
  | .tokenQuotaNotEnough remain need =>
    "token quota is not enough, token remain quota: " ++ formatQuota remain ++ ", need quota: " ++ formatQuota need
  | .userQuotaExhausted quota => "用户额度不足, 剩余额度: " ++ formatQuota quota
  | .userQuotaNotEnough quota need =>
    "预扣费额度失败, 用户剩余额度: " ++ formatQuota quota ++ ", 需要预扣费额度: " ++ formatQuota need
  | .preConsumeNegative quota => s!"pre-consume quota cannot be negative: {quota}"
  | .quotaClamp text => text
  | .subscription e => e.message
  | .subscriptionUnavailable e => "订阅额度不足或未配置订阅: " ++ e.message
  | .database => "database error"

inductive ErrorCode
  | preConsumeTokenQuotaFailed
  | insufficientUserQuota
  | updateDataError
  | queryDataError
  | modelPriceError
  deriving Repr, DecidableEq

structure TheOneError where
  err : BillingError
  errorCode : ErrorCode
  statusCode : ℕ
  deriving Repr, DecidableEq

/-- `types.NewError`. -/
def newError (err : BillingError) (errorCode : ErrorCode) : TheOneError := ⟨err, errorCode, 500⟩

/-- `types.NewErrorWithStatusCode`, always with 403 here. -/
def newForbidden (err : BillingError) (errorCode : ErrorCode) : TheOneError :=
  ⟨err, errorCode, 403⟩

/-! ## Balances -/

structure TokenQuota where
  remainQuota : ℤ
  usedQuota : ℤ
  deriving Repr, DecidableEq

/-- The balances of the session's user and token, and the subscription tables. -/
structure World where
  userQuota : ℤ
  token : TokenQuota
  db : DB

/-- What the four updates below share: a negative amount is refused, and the update may fail. -/
def quotaUpdate (ok : Bool) (quota : ℤ) (updated : World) : Except BillingError World :=
  if quota < 0 then .error .negativeQuota else if ok then .ok updated else .error .database

def increaseUserQuota (ok : Bool) (w : World) (quota : ℤ) : Except BillingError World :=
  quotaUpdate ok quota { w with userQuota := w.userQuota + quota }

def decreaseUserQuota (ok : Bool) (w : World) (quota : ℤ) : Except BillingError World :=
  quotaUpdate ok quota { w with userQuota := w.userQuota - quota }

def increaseTokenQuota (ok : Bool) (w : World) (quota : ℤ) : Except BillingError World :=
  quotaUpdate ok quota
    { w with token := ⟨w.token.remainQuota + quota, w.token.usedQuota - quota⟩ }

def decreaseTokenQuota (ok : Bool) (w : World) (quota : ℤ) : Except BillingError World :=
  quotaUpdate ok quota
    { w with token := ⟨w.token.remainQuota - quota, w.token.usedQuota + quota⟩ }

/-- `PostConsumeUserSubscriptionDelta` on the balances. -/
def postConsumeDelta (ok : Bool) (w : World) (subscriptionId delta : ℤ) : Except SubscriptionError World :=
  (postConsumeUserSubscriptionDelta ok w.db subscriptionId delta).map fun db => { w with db }

/-! ## The request -/

inductive BillingPreference
  | subscriptionFirst
  | walletFirst
  | subscriptionOnly
  | walletOnly
  deriving Repr, DecidableEq

def normalizeBillingPreference (pref : String) : BillingPreference :=
  let pref := trimSpace pref
  if pref = "wallet_first" then .walletFirst
  else if pref = "subscription_only" then .subscriptionOnly
  else if pref = "wallet_only" then .walletOnly
  else .subscriptionFirst

/-- What billing reads and writes of `RelayInfo`. -/
structure RelayInfo where
  userId : ℤ
  requestId : String
  originModelName : String := ""
  usingGroup : String := ""
  isPlayground : Bool := false
  tokenUnlimited : Bool := false
  forcePreConsume : Bool := false
  billingPreference : String := ""
  agentPlanWalletFallbackEnabled : Bool := false
  quotaClamp : Option String := none
  userQuota : ℤ := 0
  finalPreConsumedQuota : ℤ := 0
  subscriptionId : ℤ := 0
  subscriptionPreConsumed : ℤ := 0
  subscriptionPostDelta : ℤ := 0
  deriving Repr, DecidableEq

/-- What a request runs in: the subscription environment, `GetTrustQuota()` and the `token_quota`
of the request context. -/
structure Context where
  env : Env
  trustQuota : ℤ
  tokenQuota : ℤ

/-- The failures of a charge: what `GetTokenByKey` reads (through its cache; `none` is an error),
and whether the update of the token, that of the funding source and the one that takes the first
of the two back succeed. -/
structure ChargeFaults where
  tokenRead : Option ℤ
  tokenOk : Bool
  fundingOk : Bool
  rollbackOk : Bool

def preConsumeTokenQuota (info : RelayInfo) (faults : ChargeFaults) (w : World) (quota : ℤ) :
    Except BillingError World :=
  if quota < 0 then .error .negativeQuota
  else if info.isPlayground then .ok w
  else
    match faults.tokenRead with
    | none => .error .database
    | some remainQuota =>
      if ¬ info.tokenUnlimited ∧ remainQuota < quota then
        .error (.tokenQuotaNotEnough remainQuota quota)
      else decreaseTokenQuota faults.tokenOk w quota

/-! ## Funding sources -/

structure SubscriptionFunding where
  requestId : String
  userId : ℤ
  modelName : String
  usingGroup : String
  amount : ℤ
  subscriptionId : ℤ := 0
  preConsumed : ℤ := 0
  deriving Repr, DecidableEq

inductive FundingSource
  | wallet (consumed : ℤ)
  | subscription (f : SubscriptionFunding)
  deriving Repr, DecidableEq

/-- `PreConsume`; the subscription ignores the amount it is handed and takes its own. -/
def FundingSource.preConsume (env : Env) (ok : Bool) (w : World) (amount : ℤ) :
    FundingSource → Option (Except BillingError (World × FundingSource))
  | .wallet consumed =>
    if amount ≤ 0 then some (.ok (w, .wallet consumed))
    else some ((decreaseUserQuota ok w amount).map fun w' => (w', .wallet amount))
  | .subscription f =>
    match preConsumeUserSubscription env ok w.db f.requestId f.userId f.modelName f.usingGroup f.amount with
    | none => none
    | some (.error e) => some (.error (.subscription e))
    | some (.ok (db, res)) =>
      some (.ok ({ w with db }, .subscription
        { f with subscriptionId := res.userSubscriptionId, preConsumed := res.preConsumed }))

def FundingSource.settle (ok : Bool) (w : World) (delta : ℤ) :
    FundingSource → Except BillingError World
  | .wallet _ =>
    if delta = 0 then .ok w
    else if 0 < delta then decreaseUserQuota ok w delta
    else increaseUserQuota ok w (-delta)
  | .subscription f =>
    if delta = 0 then .ok w
    else (postConsumeDelta ok w f.subscriptionId delta).mapError .subscription

/-- The failures of a refund job: the update of the wallet, the three attempts on the pre-consume
record, the update that takes the top-ups back and that of the token. -/
structure RefundJobFaults where
  walletOk : Bool
  attempt₁ : RefundFaults
  attempt₂ : RefundFaults
  attempt₃ : RefundFaults
  extraOk : Bool
  tokenOk : Bool

/-- `Refund`; its error is only logged, so what is left is the balances. -/
def FundingSource.refund (faults : RefundJobFaults) (w : World) : FundingSource → World
  | .wallet consumed =>
    if consumed ≤ 0 then w
    else
      match increaseUserQuota faults.walletOk w consumed with
      | .ok w' => w'
      | .error _ => w
  | .subscription f =>
    if f.preConsumed ≤ 0 then w
    else
      { w with db := (refundWithRetry (refundRequest f.requestId) faults.attempt₁
          faults.attempt₂ faults.attempt₃ w.db).1 }

/-! ## The session -/

structure BillingSession where
  relayInfo : RelayInfo
  funding : FundingSource
  preConsumedQuota : ℤ := 0
  tokenConsumed : ℤ := 0
  extraReserved : ℤ := 0
  trusted : Bool := false
  fundingSettled : Bool := false
  settled : Bool := false
  refunded : Bool := false
  deriving Repr, DecidableEq

namespace BillingSession

def syncRelayInfo (s : BillingSession) : BillingSession :=
  match s.funding with
  | .subscription f =>
    { s with relayInfo := { s.relayInfo with
        finalPreConsumedQuota := s.preConsumedQuota
        subscriptionId := f.subscriptionId
        subscriptionPreConsumed := f.preConsumed + s.extraReserved
        subscriptionPostDelta := 0 } }
  | .wallet _ =>
    { s with relayInfo := { s.relayInfo with
        finalPreConsumedQuota := s.preConsumedQuota
        subscriptionId := 0
        subscriptionPreConsumed := 0 } }

/-! ### Pre-consume -/

def shouldTrust (ctx : Context) (s : BillingSession) : Bool :=
  if s.relayInfo.forcePreConsume then false
  else if ctx.trustQuota ≤ 0 then false
  else if ¬ (s.relayInfo.tokenUnlimited ∨ ctx.trustQuota < ctx.tokenQuota) then false
  else
    match s.funding with
    | .wallet _ => ctx.trustQuota < s.relayInfo.userQuota
    | .subscription _ => false

/-- The error `preConsume` makes of one of the funding source. -/
def fundingPreConsumeError : BillingError → TheOneError
  | .subscription e =>
    if e = .packageQuotaInsufficient ∨ contains e.message "no active subscription" ∨
        contains e.message "subscription quota insufficient" then
      newForbidden (.subscriptionUnavailable e) .insufficientUserQuota
    else newError (.subscription e) .updateDataError
  | e => newError e .updateDataError

/-- The rollback of the token when the funding source refuses. -/
def rollbackToken (ok : Bool) (w : World) (s : BillingSession) : World :=
  if 0 < s.tokenConsumed ∧ ¬ s.relayInfo.isPlayground then
    match increaseTokenQuota ok w s.tokenConsumed with
    | .ok w' => w'
    | .error _ => w
  else w

/-- The second half of `preConsume`: the funding source. -/
def preConsumeFunding (ctx : Context) (faults : ChargeFaults) (w : World) (s : BillingSession)
    (effectiveQuota : ℤ) : Option (World × Except TheOneError BillingSession) :=
  match s.funding.preConsume ctx.env faults.fundingOk w effectiveQuota with
  | none => none
  | some (.error e) =>
    some (rollbackToken faults.rollbackOk w s, .error (fundingPreConsumeError e))
  | some (.ok (w', funding)) =>
    some (w', .ok { s with funding, preConsumedQuota := effectiveQuota }.syncRelayInfo)

/-- `preConsume`; `none` is a lazy reset that does not return. -/
def preConsume (ctx : Context) (faults : ChargeFaults) (w : World) (s : BillingSession)
    (quota : ℤ) : Option (World × Except TheOneError BillingSession) :=
  let trusted := s.shouldTrust ctx
  let effectiveQuota := if trusted then 0 else quota
  if 0 < effectiveQuota then
    match preConsumeTokenQuota s.relayInfo faults w effectiveQuota with
    | .error e => some (w, .error (newForbidden e .preConsumeTokenQuotaFailed))
    | .ok w' =>
      preConsumeFunding ctx faults w' { s with trusted, tokenConsumed := effectiveQuota }
        effectiveQuota
  else preConsumeFunding ctx faults w { s with trusted } effectiveQuota

/-! ### Reserve -/

def reserveFunding (ok : Bool) (w : World) (delta : ℤ) :
    FundingSource → Except TheOneError (World × FundingSource)
  | .wallet consumed =>
    match decreaseUserQuota ok w delta with
    | .error e => .error (newError e .updateDataError)
    | .ok w' => .ok (w', .wallet (consumed + delta))
  | .subscription f =>
    match postConsumeDelta ok w f.subscriptionId delta with
    | .error e => .error (newForbidden (.subscriptionUnavailable e) .insufficientUserQuota)
    | .ok w' => .ok (w', .subscription f)

def rollbackFundingReserve (ok : Bool) (w : World) (delta : ℤ) :
    FundingSource → World × FundingSource
  | .wallet consumed =>
    match increaseUserQuota ok w delta with
    | .error _ => (w, .wallet consumed)
    | .ok w' => (w', .wallet (consumed - delta))
  | .subscription f =>
    match postConsumeDelta ok w f.subscriptionId (-delta) with
    | .error _ => (w, .subscription f)
    | .ok w' => (w', .subscription f)

def reserveToken (faults : ChargeFaults) (w : World) (s : BillingSession) (delta : ℤ) : Except TheOneError World :=
  if delta ≤ 0 ∨ s.relayInfo.isPlayground then .ok w
  else (preConsumeTokenQuota s.relayInfo faults w delta).mapError fun e =>
    newForbidden e .preConsumeTokenQuotaFailed

/-- The counters after a top-up. -/
def topUp (s : BillingSession) (funding : FundingSource) (delta : ℤ) : BillingSession :=
  { s with
    funding
    preConsumedQuota := s.preConsumedQuota + delta
    tokenConsumed := s.tokenConsumed + delta
    extraReserved := s.extraReserved + delta }

/-- The part of `Reserve` after its guards. -/
def reserveDelta (faults : ChargeFaults) (w : World) (s : BillingSession) (delta : ℤ) :
    World × BillingSession × Except TheOneError Unit :=
  match reserveFunding faults.fundingOk w delta s.funding with
  | .error e => (w, s, .error e)
  | .ok (w₁, funding) =>
    match reserveToken faults w₁ s delta with
    | .error e =>
      let r := rollbackFundingReserve faults.rollbackOk w₁ delta funding
      (r.1, { s with funding := r.2 }, .error e)
    | .ok w₂ => (w₂, (s.topUp funding delta).syncRelayInfo, .ok ())

def reserve (faults : ChargeFaults) (w : World) (s : BillingSession) (targetQuota : ℤ) :
    World × BillingSession × Except TheOneError Unit :=
  if s.settled ∨ s.refunded ∨ s.trusted ∨ targetQuota ≤ s.preConsumedQuota then (w, s, .ok ())
  else reserveDelta faults w s (targetQuota - s.preConsumedQuota)

/-! ### Settle -/

/-- The error `Settle` returns, and which of its two `return` statements returns it. -/
inductive SettleError
  | funding (e : BillingError)
  | token (e : BillingError)
  deriving Repr, DecidableEq

/-- The updates of a settlement that succeed. -/
structure SettleFaults where
  fundingOk : Bool
  tokenOk : Bool

/-- The adjustment of the token in `Settle`. -/
def settleToken (ok : Bool) (w : World) (s : BillingSession) (delta : ℤ) : Except BillingError World :=
  if s.relayInfo.isPlayground then .ok w
  else if 0 < delta then decreaseTokenQuota ok w delta
  else increaseTokenQuota ok w (-delta)

/-- The session once a delta is settled. -/
def markSettled (s : BillingSession) (delta : ℤ) : BillingSession :=
  { s with
    relayInfo :=
      match s.funding with
      | .wallet _ => s.relayInfo
      | .subscription _ => { s.relayInfo with
          subscriptionPostDelta := s.relayInfo.subscriptionPostDelta + delta }
    fundingSettled := true
    settled := true }

/-- `Settle`.  It does not look at `refunded`. -/
def settle (faults : SettleFaults) (w : World) (s : BillingSession) (actualQuota : ℤ) :
    World × BillingSession × Except SettleError Unit :=
  if s.settled then (w, s, .ok ())
  else
    let delta := actualQuota - s.preConsumedQuota
    if delta = 0 then (w, { s with settled := true }, .ok ())
    else
      match if s.fundingSettled then .ok w else s.funding.settle faults.fundingOk w delta with
      | .error e => (w, s, .error (.funding e))
      | .ok w₁ =>
        match settleToken faults.tokenOk w₁ s delta with
        | .error e => (w₁, s.markSettled delta, .error (.token e))
        | .ok w₂ => (w₂, s.markSettled delta, .ok ())

/-! ### Refund -/

/-- `needsRefundLocked`. -/
def needsRefund (s : BillingSession) : Bool :=
  if s.settled ∨ s.refunded ∨ s.fundingSettled then false
  else if 0 < s.tokenConsumed then true
  else
    match s.funding with
    | .wallet _ => false
    | .subscription f => 0 < f.preConsumed

/-- What the closure of `Refund` captures besides the funding source, which it shares with the
session. -/
structure RefundJob where
  isPlayground : Bool
  tokenConsumed : ℤ
  extraReserved : ℤ
  subscriptionId : ℤ
  deriving Repr, DecidableEq

def refundJob (s : BillingSession) : RefundJob :=
  ⟨s.relayInfo.isPlayground, s.tokenConsumed, s.extraReserved, s.relayInfo.subscriptionId⟩

/-- `Refund` up to the start of its job. -/
def refund (s : BillingSession) : BillingSession × Option RefundJob :=
  if s.settled ∨ s.refunded ∨ ¬ s.needsRefund then (s, none)
  else ({ s with refunded := true }, some s.refundJob)

/-- The top-ups the job takes back from a subscription. -/
def refundExtra (ok : Bool) (w : World) (job : RefundJob) : FundingSource → World
  | .wallet _ => w
  | .subscription _ =>
    if 0 < job.extraReserved ∧ 0 < job.subscriptionId then
      match postConsumeDelta ok w job.subscriptionId (-job.extraReserved) with
      | .ok w' => w'
      | .error _ => w
    else w

def refundToken (ok : Bool) (w : World) (job : RefundJob) : World :=
  if 0 < job.tokenConsumed ∧ ¬ job.isPlayground then
    match increaseTokenQuota ok w job.tokenConsumed with
    | .ok w' => w'
    | .error _ => w
  else w

/-- The job `Refund` starts. -/
def runRefundJob (faults : RefundJobFaults) (w : World) (funding : FundingSource) (job : RefundJob) : World :=
  let w₁ := funding.refund faults w
  let w₂ := refundExtra faults.extraOk w₁ job funding
  refundToken faults.tokenOk w₂ job

end BillingSession

open BillingSession

/-! ## Opening a session -/

/-- The wallet branch of `NewBillingSession`; `userQuota` is what `GetUserQuota` reads. -/
def tryWallet (ctx : Context) (userQuota : Option ℤ) (faults : ChargeFaults) (w : World)
    (info : RelayInfo) (preConsumedQuota : ℤ) : Option (World × Except TheOneError BillingSession) :=
  match userQuota with
  | none => some (w, .error (newError .database .queryDataError))
  | some userQuota =>
    if userQuota ≤ 0 then
      some (w, .error (newForbidden (.userQuotaExhausted userQuota) .insufficientUserQuota))
    else if userQuota - preConsumedQuota < 0 then
      some (w, .error (newForbidden (.userQuotaNotEnough userQuota preConsumedQuota) .insufficientUserQuota))
    else
      preConsume ctx faults w ⟨{ info with userQuota }, .wallet 0, 0, 0, 0, false, false, false, false⟩ preConsumedQuota

/-- What a subscription session pre-consumes: at least one unit. -/
def subConsume (preConsumedQuota : ℤ) : ℤ := if preConsumedQuota ≤ 0 then 1 else preConsumedQuota

/-- The subscription branch of `NewBillingSession`. -/
def trySubscription (ctx : Context) (faults : ChargeFaults) (w : World) (info : RelayInfo)
    (preConsumedQuota : ℤ) : Option (World × Except TheOneError BillingSession) :=
  let amount := subConsume preConsumedQuota
  let funding : SubscriptionFunding :=
    ⟨info.requestId, info.userId, info.originModelName, info.usingGroup, amount, 0, 0⟩
  preConsume ctx faults w ⟨info, .subscription funding, 0, 0, 0, false, false, false, false⟩ amount

/-- `FindMatchingAgentPlanPackage`, as far as the allocation it finds. -/
def findMatchingAgentPlanPackage (ok : Bool) (db : DB) (userId : ℤ) (usingGroup modelName : String) (now : ℤ) :
    Except SubscriptionError (Option AgentPlanPackageAllocation) :=
  if userId ≤ 0 then .error .invalidUserId
  else if !ok then .error .database
  else .ok ((activeSubscriptions db userId now).findSome? fun sub =>
    (db.allocations.filter fun a => a.userSubscriptionId = sub.id ∧
      a.scopeGroup = trimSpace usingGroup ∧ (a.scopeModels.getD []).contains modelName).getLast?)

def hasActiveUserSubscription (ok : Bool) (db : DB) (userId now : ℤ) : Except SubscriptionError Bool :=
  if userId ≤ 0 then .error .invalidUserId
  else if !ok then .error .database
  else .ok (activeSubscriptions db userId now ≠ [])

/-- `UserActiveSubscriptionsAllowWalletOverflow`: one that forbids it is enough. -/
def userActiveSubscriptionsAllowWalletOverflow (ok : Bool) (db : DB) (userId now : ℤ) : Except SubscriptionError Bool :=
  if userId ≤ 0 then .error .invalidUserId
  else if !ok then .error .database
  else .ok ((activeSubscriptions db userId now).all fun s => s.allowWalletOverflow)

/-- The reads of `NewBillingSession` and the failures of the two charges it may try. -/
structure OpenFaults where
  packageOk : Bool
  activeOk : Bool
  overflowOk : Bool
  userQuota : Option ℤ
  wallet : ChargeFaults
  subscription : ChargeFaults

/-- Try the second branch when the first one reports a lack of quota. -/
def onInsufficient (first : Option (World × Except TheOneError BillingSession))
    (second : World → TheOneError → Option (World × Except TheOneError BillingSession)) :
    Option (World × Except TheOneError BillingSession) :=
  match first with
  | some (w, .error e) =>
    if e.errorCode = .insufficientUserQuota then second w e else some (w, .error e)
  | answer => answer

/-- The preference `subscription_first` of `NewBillingSession`. -/
def subscriptionFirst (ctx : Context) (faults : OpenFaults) (w : World) (info : RelayInfo)
    (preConsumedQuota : ℤ) : Option (World × Except TheOneError BillingSession) :=
  match hasActiveUserSubscription faults.activeOk w.db info.userId ctx.env.now with
  | .error e => some (w, .error (newError (.subscription e) .queryDataError))
  | .ok false => tryWallet ctx faults.userQuota faults.wallet w info preConsumedQuota
  | .ok true =>
    onInsufficient (trySubscription ctx faults.subscription w info preConsumedQuota)
      fun w' e =>
        match userActiveSubscriptionsAllowWalletOverflow faults.overflowOk w'.db info.userId ctx.env.now with
        | .error e' => some (w', .error (newError (.subscription e') .queryDataError))
        | .ok true => tryWallet ctx faults.userQuota faults.wallet w' info preConsumedQuota
        | .ok false => some (w', .error e)

def newBillingSession (ctx : Context) (faults : OpenFaults) (w : World) (info : RelayInfo)
    (preConsumedQuota : ℤ) : Option (World × Except TheOneError BillingSession) :=
  match findMatchingAgentPlanPackage faults.packageOk w.db info.userId info.usingGroup
      info.originModelName ctx.env.now with
  | .error e => some (w, .error (newError (.subscription e) .queryDataError))
  | .ok (some allocation) =>
    onInsufficient (trySubscription ctx faults.subscription w info preConsumedQuota)
      fun w' e =>
        if allocation.allowWalletFallback ∧ info.agentPlanWalletFallbackEnabled then
          tryWallet ctx faults.userQuota faults.wallet w' info preConsumedQuota
        else some (w', .error e)
  | .ok none =>
    match normalizeBillingPreference info.billingPreference with
    | .subscriptionOnly => trySubscription ctx faults.subscription w info preConsumedQuota
    | .walletOnly => tryWallet ctx faults.userQuota faults.wallet w info preConsumedQuota
    | .walletFirst =>
      onInsufficient (tryWallet ctx faults.userQuota faults.wallet w info preConsumedQuota)
        fun w' _ => trySubscription ctx faults.subscription w' info preConsumedQuota
    | .subscriptionFirst => subscriptionFirst ctx faults w info preConsumedQuota

def preConsumeBilling (ctx : Context) (faults : OpenFaults) (w : World) (info : RelayInfo)
    (preConsumedQuota : ℤ) : Option (World × Except TheOneError BillingSession) :=
  match info.quotaClamp with
  | some text => some (w, .error ⟨.quotaClamp text, .modelPriceError, 400⟩)
  | none =>
    if preConsumedQuota < 0 then
      some (w, .error ⟨.preConsumeNegative preConsumedQuota, .modelPriceError, 400⟩)
    else newBillingSession ctx faults w info preConsumedQuota

/-! ## Calls on a session -/

/-- A session, the balances, and the refund job that is still to run. -/
structure State where
  world : World
  session : BillingSession
  job : Option RefundJob

inductive Call
  | reserve (targetQuota : ℤ) (faults : ChargeFaults)
  | settle (actualQuota : ℤ) (faults : SettleFaults)
  | refund
  | runRefund (faults : RefundJobFaults)

/-- What a call returns; for `Refund` whether it started a job. -/
inductive Outcome
  | reserve (result : Except TheOneError Unit)
  | settle (result : Except SettleError Unit)
  | refund (started : Bool)
  | runRefund

/-- One call.  The mutex of the session makes the first three atomic; the job runs on its own
later, and does nothing when there is none. -/
def call (st : State) : Call → State × Outcome
  | .reserve targetQuota faults =>
    let r := reserve faults st.world st.session targetQuota
    ({ st with world := r.1, session := r.2.1 }, .reserve r.2.2)
  | .settle actualQuota faults =>
    let r := settle faults st.world st.session actualQuota
    ({ st with world := r.1, session := r.2.1 }, .settle r.2.2)
  | .refund =>
    match st.session.refund with
    | (s, some job) => ({ st with session := s, job := some job }, .refund true)
    | (s, none) => ({ st with session := s }, .refund false)
  | .runRefund faults =>
    match st.job with
    | none => (st, .runRefund)
    | some job =>
      (⟨runRefundJob faults st.world st.session.funding job, st.session, none⟩, .runRefund)

end OneApi.Billing.Session
