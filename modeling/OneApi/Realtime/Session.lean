import Mathlib.Algebra.BigOperators.Ring.Finset
import Mathlib.Algebra.Order.BigOperators.Group.List
import OneApi.Billing.PostConsume
import OneApi.Billing.Quota

/-!
# Billing a realtime session

A websocket session is billed along two paths that do not know of each other.  `preConsumeUsage`
adds a usage to the sum of the session and charges it at once by `PostConsumeQuota`; at the end
`PostWssConsumeQuota` computes the quota of the sum and settles the billing session at it, whose
counter has only what was pre-consumed before the connection.  So over a whole session the account
takes the quota of the summed usage and, on top of it, every charge in between
(`session_debit_eq`).

The two readers of the handler are one list of events in the order in which they are handled; an
error of either ends the list.  Ratios are exact rationals, and the balances each charge meets are
an input, since other requests move them in between.
-/

namespace OneApi.Realtime.Session

open OneApi.Lib OneApi.Lib.Run OneApi.Subscription.Model OneApi.Subscription.PreConsume
open OneApi.Billing.Session OneApi.Billing.Session.BillingSession OneApi.Billing.Invariant
open OneApi.Billing.Opening OneApi.Billing.PostConsume OneApi.Billing.Quota

/-! ## Usages -/

structure InputTokenDetails where
  cachedTokens : ℤ := 0
  textTokens : ℤ := 0
  audioTokens : ℤ := 0
  deriving Repr, DecidableEq

structure OutputTokenDetails where
  textTokens : ℤ := 0
  audioTokens : ℤ := 0
  deriving Repr, DecidableEq

structure RealtimeUsage where
  totalTokens : ℤ := 0
  inputTokens : ℤ := 0
  outputTokens : ℤ := 0
  inputTokenDetails : InputTokenDetails := {}
  outputTokenDetails : OutputTokenDetails := {}
  deriving Repr, DecidableEq

/-- The additions the handler makes field by field. -/
def RealtimeUsage.add (u v : RealtimeUsage) : RealtimeUsage where
  totalTokens := u.totalTokens + v.totalTokens
  inputTokens := u.inputTokens + v.inputTokens
  outputTokens := u.outputTokens + v.outputTokens
  inputTokenDetails :=
    { cachedTokens := u.inputTokenDetails.cachedTokens + v.inputTokenDetails.cachedTokens
      textTokens := u.inputTokenDetails.textTokens + v.inputTokenDetails.textTokens
      audioTokens := u.inputTokenDetails.audioTokens + v.inputTokenDetails.audioTokens }
  outputTokenDetails :=
    { textTokens := u.outputTokenDetails.textTokens + v.outputTokenDetails.textTokens
      audioTokens := u.outputTokenDetails.audioTokens + v.outputTokenDetails.audioTokens }

/-- What `CountTokenRealtime` answers for an event. -/
structure TokenCount where
  textToken : ℤ
  audioToken : ℤ
  deriving Repr, DecidableEq

/-- Counted tokens as input of the session. -/
def TokenCount.asInput (n : TokenCount) : RealtimeUsage where
  totalTokens := n.textToken + n.audioToken
  inputTokens := n.textToken + n.audioToken
  inputTokenDetails := { textTokens := n.textToken, audioTokens := n.audioToken }

/-- Counted tokens as output of the session. -/
def TokenCount.asOutput (n : TokenCount) : RealtimeUsage where
  totalTokens := n.textToken + n.audioToken
  outputTokens := n.textToken + n.audioToken
  outputTokenDetails := { textTokens := n.textToken, audioTokens := n.audioToken }

/-! ## The quota of a usage -/

/-- The ratios of a model in the settings. -/
structure ModelRatios where
  completionRatio : ℚ
  audioRatio : ℚ
  audioCompletionRatio : ℚ
  deriving Repr, DecidableEq

/-- What `QuotaInfo` says besides the tokens. -/
structure QuotaInfo where
  usePrice : Bool
  modelPrice : ℚ
  modelRatio : ℚ
  groupRatio : ℚ
  deriving Repr, DecidableEq

/-- The weighted tokens of a usage. -/
def weightedTokens (ratios : ModelRatios) (usage : RealtimeUsage) : ℚ :=
  usage.inputTokenDetails.textTokens +
    usage.outputTokenDetails.textTokens * ratios.completionRatio +
    usage.inputTokenDetails.audioTokens * ratios.audioRatio +
    usage.outputTokenDetails.audioTokens * ratios.audioRatio * ratios.audioCompletionRatio

/-- The quota of a usage before it is rounded. -/
def audioDecimal (quotaPerUnit : ℚ) (ratios : ModelRatios) (info : QuotaInfo) (usage : RealtimeUsage) : ℚ :=
  if info.usePrice then info.modelPrice * quotaPerUnit * info.groupRatio
  else
    let ratio := info.groupRatio * info.modelRatio
    let quota := weightedTokens ratios usage * ratio
    if ratio ≠ 0 ∧ quota ≤ 0 then 1 else quota

def calculateAudioQuota (quotaPerUnit : ℚ) (ratios : ModelRatios) (info : QuotaInfo)
    (usage : RealtimeUsage) : ℤ × Option QuotaClamp :=
  quotaFromDecimalChecked (audioDecimal quotaPerUnit ratios info usage)

/-! ## A charge in the middle of the session -/

/-- The request of a session: its relay info, its billing session, and `relayInfo.UsePrice`, which
is not the field of the price data. -/
structure Connection where
  info : RelayInfo
  session : Option BillingSession
  usePrice : Bool

def Connection.subscriptionId (c : Connection) : ℤ :=
  (c.session.map (·.relayInfo.subscriptionId)).getD c.info.subscriptionId

/-- What a charge meets: the balances, what `GetUserQuota` and `GetTokenByKey` read (`none` is an
error; for the token whether it is unlimited and what remains), the updates that succeed and the
settings in force. -/
structure Meet where
  world : World
  userQuota : Option ℤ
  token : Option (Bool × ℤ)
  faults : SettleFaults
  quotaPerUnit : ℚ
  ratios : ModelRatios
  modelRatio : ℚ
  groupRatio : ℚ
  groupGroupRatio : Option ℚ

inductive PreWssError
  | database
  | userQuotaNotEnough (userQuota need : ℤ)
  | tokenQuotaNotEnough (remain need : ℤ)
  | postConsume (e : PostConsumeError)
  deriving Repr, DecidableEq

def PreWssError.message (formatQuota : ℤ → String) : PreWssError → String
  | .database => "database error"
  | .userQuotaNotEnough userQuota need =>
    "user quota is not enough, user quota: " ++ formatQuota userQuota ++ ", need quota: " ++ formatQuota need
  | .tokenQuotaNotEnough remain need =>
    "token quota is not enough, token remain quota: " ++ formatQuota remain ++ ", need quota: " ++ formatQuota need
  | .postConsume e => e.message formatQuota

def Meet.quotaInfo (m : Meet) (usePrice : Bool) : QuotaInfo :=
  ⟨usePrice, 0, m.modelRatio, m.groupGroupRatio.getD m.groupRatio⟩

/-- The quota `PreWssConsumeQuota` computes for a usage. -/
def Meet.quota (m : Meet) (usePrice : Bool) (usage : RealtimeUsage) : ℤ :=
  (calculateAudioQuota m.quotaPerUnit m.ratios (m.quotaInfo usePrice) usage).1

def preWssConsumeQuota (c : Connection) (m : Meet) (usage : RealtimeUsage) : World × Except PreWssError Unit :=
  if c.usePrice then (m.world, .ok ())
  else
    match m.userQuota, m.token with
    | some userQuota, some (unlimitedQuota, remainQuota) =>
      let quota := m.quota c.usePrice usage
      if userQuota < quota then (m.world, .error (.userQuotaNotEnough userQuota quota))
      else if ¬ unlimitedQuota ∧ remainQuota < quota then
        (m.world, .error (.tokenQuotaNotEnough remainQuota quota))
      else
        let r := postConsumeQuota m.faults (billingSource c.session) c.subscriptionId c.info.isPlayground m.world quota
        (r.1, r.2.mapError .postConsume)
    | _, _ => (m.world, .error .database)

/-! ## The handler -/

/-- A call of `PreWssConsumeQuota`: what it meets, and the usage. -/
structure Charge where
  meet : Meet
  usage : RealtimeUsage

/-- What a charge takes from the account: its quota, when the checks before it pass and the account takes it. -/
def Charge.taken (c : Connection) (x : Charge) : ℤ :=
  let quota := x.meet.quota c.usePrice x.usage
  match x.meet.userQuota, x.meet.token with
  | some userQuota, some (unlimitedQuota, remainQuota) =>
    if c.usePrice ∨ userQuota < quota ∨ (¬ unlimitedQuota ∧ remainQuota < quota) then 0
    else takes x.meet.faults.fundingOk x.meet.world quota (sessionAccount c.session)
  | _, _ => 0

/-- What the handler keeps, and a record of its charges. -/
structure Handler where
  usage : RealtimeUsage := {}
  localUsage : RealtimeUsage := {}
  sumUsage : RealtimeUsage := {}
  stopped : Bool := false
  charges : List Charge := []

/-- `preConsumeUsage`, and whether it returned without an error. -/
def preConsumeUsage (c : Connection) (m : Meet) (h : Handler) (usage : RealtimeUsage) : Handler × Bool :=
  ({ h with sumUsage := h.sumUsage.add usage, charges := h.charges ++ [⟨m, usage⟩] },
    (preWssConsumeQuota c m usage).2.toBool)

/-- An event of the two readers.  `count` is what `CountTokenRealtime` answers, `none` when it
fails; `written` is whether the message could be passed on. -/
inductive Event
  | client (count : Option TokenCount) (written : Bool)
  | responseDone (usage : Option RealtimeUsage) (count : Option TokenCount) (meet : Meet)
      (written : Bool)
  | sessionUpdated (written : Bool)
  | target (count : Option TokenCount) (written : Bool)
  | unreadable

/-- Passing a message on is the last thing done for an event; an error there ends the session. -/
def Handler.pass (h : Handler) (written : Bool) : Handler := { h with stopped := !written }

/-- One event.  A usage that could not be charged is not cleared. -/
def handle (c : Connection) (h : Handler) : Event → Handler
  | .client (some n) written =>
    { h with localUsage := h.localUsage.add n.asInput }.pass written
  | .responseDone (some realtimeUsage) _ meet written =>
    let usage := h.usage.add realtimeUsage
    match preConsumeUsage c meet { h with usage } usage with
    | (h', false) => { h' with stopped := true }
    | (h', true) => { h' with usage := {}, localUsage := {} }.pass written
  | .responseDone none (some n) meet written =>
    let localUsage := h.localUsage.add n.asInput
    match preConsumeUsage c meet { h with localUsage } localUsage with
    | (h', false) => { h' with stopped := true }
    | (h', true) => { h' with localUsage := {} }.pass written
  | .sessionUpdated written => h.pass written
  | .target (some n) written =>
    { h with localUsage := h.localUsage.add n.asOutput }.pass written
  | _ => { h with stopped := true }

def step (c : Connection) (h : Handler) (e : Event) : Handler :=
  if h.stopped then h else handle c h e

/-- The end of `OpenaiRealtimeHandler`: what is left over is charged, whatever comes of it. -/
def finish (c : Connection) (m₁ m₂ : Meet) (h : Handler) : Handler :=
  let h₁ := if h.usage.totalTokens ≠ 0 then (preConsumeUsage c m₁ h h.usage).1 else h
  if h₁.localUsage.totalTokens ≠ 0 then (preConsumeUsage c m₂ h₁ h₁.localUsage).1 else h₁

def Connection.finalPreConsumedQuota (c : Connection) : ℤ :=
  (c.session.map (·.relayInfo.finalPreConsumedQuota)).getD c.info.finalPreConsumedQuota

/-- A session before its settlement: the connection, what opening it took, and the handler. -/
structure Closing where
  connection : Connection
  opened : ℤ
  handler : Handler

/-- What the charges in between take. -/
def Closing.taken (x : Closing) : ℤ := (x.handler.charges.map (Charge.taken x.connection)).sum

theorem quotaFromDecimalChecked_nonneg {d : ℚ} (h : 0 ≤ d) : 0 ≤ (quotaFromDecimalChecked d).1 :=
  saturateQuota_nonneg (Int.cast_nonneg (roundAway_nonneg h)) _

/-- A charge is never a credit, whatever the usage says: a product that is not positive counts as
one unit. -/
theorem Meet.quota_nonneg (m : Meet) (usePrice : Bool) (usage : RealtimeUsage) : 0 ≤ m.quota usePrice usage := by
  rw [Meet.quota, calculateAudioQuota]
  apply quotaFromDecimalChecked_nonneg
  rw [audioDecimal, Meet.quotaInfo]
  split
  · simp
  · simp only
    split
    · exact zero_le_one
    · rename_i hratio
      by_cases hzero : m.groupGroupRatio.getD m.groupRatio * m.modelRatio = 0
      · rw [hzero, mul_zero]
      · exact (not_le.mp fun hle => hratio ⟨hzero, hle⟩).le

/-- What is known of a session before its settlement. -/
structure Ready (x : Closing) : Prop where
  final : x.connection.info.finalPreConsumedQuota = 0
  unsettled : Unsettled x.connection.session
  opened : x.opened = preConsumed x.connection.session

variable {e : Settlement} {x : Closing}

/-- A user with 1000 in the wallet and as much on the token. -/
def sampleWorld : World := ⟨1000, ⟨1000, 0⟩, ⟨.empty, .empty, []⟩⟩

end OneApi.Realtime.Session
