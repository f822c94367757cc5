import OneApi.Billing.Opening

/-!
# The ledger of a billing session

What a session has cost so far can be told from the outcomes of the calls made on it.  The first
`Settle` that got past the funding source decides: the funding source is then down by its actual
quota, and so is the token unless its own adjustment failed.  Before that, a `Refund` that found
something to give back brings both debits to zero once its job has run.  Otherwise both are at the
pre-consumed quota.

`Standing` is the invariant behind this: it ties the trace of outcomes to the state of the session
(`Open` until it is settled or given back), and one step lemma carries it through every call.
-/

namespace OneApi.Billing.Ledger

open OneApi.Lib OneApi.Lib.Run OneApi.Subscription.Model OneApi.Subscription.PreConsume
open OneApi.Subscription.RefundOnce OneApi.Billing.Session OneApi.Billing.Session.BillingSession
open OneApi.Billing.Invariant OneApi.Billing.Opening

/-! ## Traces -/

/-- A session together with the calls made on it and what they returned. -/
structure History where
  state : State
  trace : List (Call × Outcome)

def History.call (h : History) (c : Call) : History :=
  ⟨(Session.call h.state c).1, h.trace ++ [(c, (Session.call h.state c).2)]⟩

/-- The actual quota of a `Settle` that has adjusted the funding source, and whether it has
adjusted the token as well. -/
def settlementOf : Call × Outcome → Option (ℤ × Bool)
  | (.settle actualQuota _, .settle (.ok _)) => some (actualQuota, true)
  | (.settle actualQuota _, .settle (.error (.token _))) => some (actualQuota, false)
  | _ => none

def firstSettlement (trace : List (Call × Outcome)) : Option (ℤ × Bool) :=
  trace.findSome? settlementOf

/-- A `Refund` that found something to give back. -/
def startsRefund : Call × Outcome → Bool
  | (_, .refund started) => started
  | _ => false

def refundStarted (trace : List (Call × Outcome)) : Bool := trace.any startsRefund

theorem firstSettlement_snoc (trace : List (Call × Outcome)) (e : Call × Outcome) :
    firstSettlement (trace ++ [e]) = (firstSettlement trace).or (settlementOf e) := by
  rw [firstSettlement, firstSettlement, List.findSome?_append, List.findSome?_singleton]

theorem refundStarted_snoc (trace : List (Call × Outcome)) (e : Call × Outcome) :
    refundStarted (trace ++ [e]) = (refundStarted trace || startsRefund e) := by
  rw [refundStarted, refundStarted, List.any_append, List.any_cons, List.any_nil, Bool.or_false]

/-! ## Debits -/

/-- What the funding source is down by since the balances `w₀`. -/
def fundingDebit (w₀ : World) (st : State) : ℤ :=
  used st.world (account st.session.funding) - used w₀ (account st.session.funding)

/-- What the token is down by. -/
def tokenDebit (w₀ : World) (st : State) : ℤ :=
  w₀.token.remainQuota - st.world.token.remainQuota

/-- What a settlement leaves of an actual quota: a subscription is not credited below a quota used
of zero. -/
def settledDebit (w₀ : World) (funding : FundingSource) (actualQuota : ℤ) : ℤ :=
  match funding with
  | .wallet _ => actualQuota
  | .subscription f => max actualQuota (-usedOf w₀.db.subs f.subscriptionId)

/-- The debit of a session that is not settled. -/
def heldDebit (h : History) : ℤ :=
  if refundStarted h.trace ∧ h.state.job.isNone then 0 else h.state.session.preConsumedQuota

/-- **The ledger**: the debits since `w₀` that the trace of a session tells. -/
def Balanced (w₀ : World) (h : History) : Prop :=
  match firstSettlement h.trace with
  | some (actualQuota, adjusted) =>
    fundingDebit w₀ h.state = settledDebit w₀ h.state.session.funding actualQuota ∧
      tokenDebit w₀ h.state = tokenCharge h.state.session.relayInfo
        (if adjusted then actualQuota else h.state.session.preConsumedQuota)
  | none =>
    fundingDebit w₀ h.state = heldDebit h ∧ tokenDebit w₀ h.state = tokenCharge h.state.session.relayInfo (heldDebit h)

/-- The updates that take something back succeed, and nothing is settled after a refund. -/
def Orderly (h : History) : Call → Prop
  | .reserve _ faults => faults.rollbackOk = true
  | .settle _ _ => h.state.session.refunded = false
  | .refund => True
  | .runRefund faults => Works faults

instance (h : History) : DecidablePred (Orderly h)
  | .reserve _ faults => inferInstanceAs (Decidable (faults.rollbackOk = true))
  | .settle _ _ => inferInstanceAs (Decidable (h.state.session.refunded = false))
  | .refund => isTrue trivial
  | .runRefund faults => inferInstanceAs (Decidable (Works faults))

/-! ## The invariant -/

/-- The session is given back: both balances are where they started. -/
structure GivenBack (base : Base) (w : World) (s : BillingSession) : Prop where
  account_eq : account s.funding = base.account
  used_eq : used w base.account = base.used
  remain_eq : w.token.remainQuota = base.remain

/-- Where a session that is not settled stands. -/
structure Unsettled (base : Base) (h : History) : Prop where
  settled : h.state.session.settled = false
  refunded : h.state.session.refunded = refundStarted h.trace
  job : ∀ job, h.state.job = some job → refundStarted h.trace = true ∧ job = h.state.session.refundJob
  balance :
    if refundStarted h.trace ∧ h.state.job.isNone then GivenBack base h.state.world h.state.session
    else Open base 0 h.state.world h.state.session

/-- Where a session stands, by its trace. -/
def Standing (base : Base) (h : History) : Prop :=
  match firstSettlement h.trace with
  | some (actualQuota, adjusted) =>
    h.state.job = none ∧ Settled base actualQuota
      (if adjusted then actualQuota else h.state.session.preConsumedQuota)
      h.state.world h.state.session
  | none => Unsettled base h

/-! ## One call -/

section Step

variable {base : Base} {st : State} {trace : List (Call × Outcome)} (hfirst : firstSettlement trace = none)

include hfirst in
/-- An entry that neither settles nor starts a refund leaves an unsettled session where it is. -/
theorem standing_snoc {e : Call × Outcome} (hset : settlementOf e = none) (hstart : startsRefund e = false)
    (h : Unsettled base ⟨st, trace⟩) : Standing base ⟨st, trace ++ [e]⟩ := by
  have hrefund : refundStarted (trace ++ [e]) = refundStarted trace := by
    rw [refundStarted_snoc, hstart, Bool.or_false]
  have hnone : firstSettlement (trace ++ [e]) = none := by
    rw [firstSettlement_snoc, hfirst, hset]
    rfl
  rw [Standing]
  simp only [hnone]
  exact ⟨h.settled, by rw [hrefund]; exact h.refunded, by simpa only [hrefund] using h.job,
    by simpa only [hrefund] using h.balance⟩

/-- Without a refund an unsettled session is open. -/
theorem Unsettled.open (h : Unsettled base ⟨st, trace⟩) (hnot : refundStarted trace = false) :
    st.job = none ∧ Open base 0 st.world st.session := by
  have hbalance := h.balance
  simp only [hnot, Bool.false_eq_true, false_and, if_false] at hbalance
  refine ⟨?_, hbalance⟩
  cases hjob : st.job with
  | none => rfl
  | some job =>
    have hstarted := (h.job job hjob).1
    simp only [hnot, Bool.false_eq_true] at hstarted

/-- A session that is open and not refunded is unsettled. -/
theorem unsettled_of_open (hnot : refundStarted trace = false) (hjob : st.job = none)
    (hsettled : st.session.settled = false) (hrefunded : st.session.refunded = false)
    (h : Open base 0 st.world st.session) : Unsettled base ⟨st, trace⟩ := by
  refine ⟨hsettled, hrefunded.trans hnot.symm, fun job hsome => ?_, ?_⟩
  · simp only [hjob] at hsome
    cases hsome
  · simp only [hnot, Bool.false_eq_true, false_and, if_false]
    exact h

include hfirst in
theorem standing_reserve {targetQuota : ℤ} {faults : ChargeFaults} (hroll : faults.rollbackOk = true)
    (h : Unsettled base ⟨st, trace⟩) : Standing base (History.call ⟨st, trace⟩ (.reserve targetQuota faults)) := by
  refine standing_snoc hfirst rfl rfl ?_
  cases hstarted : refundStarted trace with
  | true =>
    rw [reserve_refunded (h.refunded.trans hstarted)]
    exact h
  | false =>
    obtain ⟨hjob, hopen⟩ := h.open hstarted
    obtain ⟨hsettled, hrefunded, leak, hleak, hopen', -⟩ :=
      reserve_open faults targetQuota hopen
    obtain rfl := hleak hroll
    exact unsettled_of_open hstarted hjob (hsettled.trans h.settled)
      (hrefunded.trans (h.refunded.trans hstarted)) hopen'

include hfirst in
theorem standing_settle {actualQuota : ℤ} {faults : SettleFaults} (hnot : st.session.refunded = false)
    (h : Unsettled base ⟨st, trace⟩) : Standing base (History.call ⟨st, trace⟩ (.settle actualQuota faults)) := by
  have hstarted : refundStarted trace = false := h.refunded.symm.trans hnot
  obtain ⟨hjob, hopen⟩ := h.open hstarted
  obtain ⟨e, hcall⟩ | ⟨w', s', result, hcall, hquota, hdone⟩ :=
    call_settle_open faults actualQuota hopen h.settled
  · -- the funding source refused: nothing has changed
    rw [History.call, hcall]
    exact standing_snoc hfirst rfl rfl h
  · rw [History.call, hcall, Standing]
    simp only [firstSettlement_snoc, hfirst, Option.none_or]
    obtain ⟨rfl, hset⟩ | ⟨e, rfl, hset⟩ := hdone
    · rw [add_zero] at hset
      exact ⟨hjob, hset⟩
    · rw [add_zero] at hset
      simp only [settlementOf, Bool.false_eq_true, if_false, hquota]
      exact ⟨hjob, hset⟩

include hfirst in
theorem standing_refund (h : Unsettled base ⟨st, trace⟩) : Standing base (History.call ⟨st, trace⟩ .refund) := by
  obtain hcall | ⟨hnot, hcall⟩ := call_refund st
  · rw [History.call, hcall]
    exact standing_snoc hfirst rfl rfl h
  · obtain ⟨-, hopen⟩ := h.open (h.refunded.symm.trans hnot)
    have hstarted : refundStarted (trace ++ [(.refund, .refund true)]) = true := by
      rw [refundStarted_snoc, startsRefund, Bool.or_true]
    rw [History.call, hcall, Standing]
    simp only [firstSettlement_snoc, hfirst, Option.none_or]
    refine ⟨h.settled, hstarted.symm, fun job hjob => ⟨hstarted, ?_⟩, ?_⟩
    · cases hjob
      rfl
    · -- the job is still to run, so the session holds what it held
      rw [if_neg (fun hdone => Bool.false_ne_true hdone.2)]
      exact hopen.withFlags st.session.settled true

include hfirst in
theorem standing_runRefund {faults : RefundJobFaults} (hworks : Works faults) (h : Unsettled base ⟨st, trace⟩) :
    Standing base (History.call ⟨st, trace⟩ (.runRefund faults)) := by
  obtain ⟨w, s, job⟩ := st
  cases job with
  | none => exact standing_snoc hfirst rfl rfl h
  | some job =>
    obtain ⟨hstarted, hjob⟩ := h.job job rfl
    simp only at hstarted hjob
    subst hjob
    have hopen : Open base 0 w s := by
      have hbalance := h.balance
      rwa [if_neg (fun hdone => Bool.false_ne_true hdone.2)] at hbalance
    obtain ⟨-, -, hzero⟩ := runRefundJob_open faults hopen hworks.2.1.le
    obtain ⟨hused, hremain⟩ := hzero hworks rfl
    refine standing_snoc hfirst rfl rfl ⟨h.settled, h.refunded, fun job hjob => ?_, ?_⟩
    · cases hjob
    · rw [if_pos ⟨hstarted, rfl⟩]
      exact ⟨hopen.account_eq, hused, hremain⟩

/-- **Every orderly call keeps the standing of a session.** -/
theorem standing_step (h : History) (c : Call) (hc : Orderly h c) (hs : Standing base h) :
    Standing base (h.call c) := by
  obtain ⟨st, trace⟩ := h
  cases hfirst : firstSettlement trace with
  | none =>
    have hun : Unsettled base ⟨st, trace⟩ := by
      simpa only [Standing, hfirst] using hs
    cases c with
    | reserve targetQuota faults => exact standing_reserve hfirst hc hun
    | settle actualQuota faults => exact standing_settle hfirst hc hun
    | refund => exact standing_refund hfirst hun
    | runRefund faults => exact standing_runRefund hfirst hc hun
  | some settlement =>
    obtain ⟨actualQuota, adjusted⟩ := settlement
    simp only [Standing, hfirst] at hs
    obtain ⟨hjob, hset⟩ := hs
    rw [History.call, call_settled hset.settled hjob, Standing]
    simp only [firstSettlement_snoc, hfirst, Option.some_or]
    exact ⟨hjob, hset⟩

end Step

/-! ## Failed calls -/

/-- The call returned an error before anything of it was kept. -/
def Failed : Outcome → Prop
  | .reserve (.error _) => True
  | .settle (.error (.funding _)) => True
  | _ => False

/-- The two balances of a session. -/
def balances (st : State) : ℤ × ℤ :=
  (used st.world (account st.session.funding), st.world.token.remainQuota)

/-- **A call that fails leaves both balances as they were.** -/
theorem balances_of_failed {base : Base} {h : History} {c : Call} (hs : Standing base h)
    (hc : Orderly h c) (hfail : Failed (Session.call h.state c).2) :
    balances (Session.call h.state c).1 = balances h.state := by
  obtain ⟨st, trace⟩ := h
  cases hfirst : firstSettlement trace with
  | some settlement =>
    obtain ⟨actualQuota, adjusted⟩ := settlement
    simp only [Standing, hfirst] at hs
    rw [call_settled hs.2.settled hs.1]
  | none =>
    have hun : Unsettled base ⟨st, trace⟩ := by
      simpa only [Standing, hfirst] using hs
    cases c with
    | refund | runRefund faults =>
      simp only [Session.call] at hfail
      split at hfail <;> exact hfail.elim
    | reserve targetQuota faults =>
      cases hstarted : refundStarted trace with
      | true => rw [reserve_refunded (hun.refunded.trans hstarted)]
      | false =>
        obtain ⟨-, hopen⟩ := hun.open hstarted
        obtain ⟨-, -, leak, hleak, hopen', hsame⟩ := reserve_open faults targetQuota hopen
        obtain rfl := hleak hc
        have herr : ∃ e, (reserve faults st.world st.session targetQuota).2.2 = .error e := by
          cases hr : (reserve faults st.world st.session targetQuota).2.2 with
          | error e => exact ⟨e, rfl⟩
          | ok u =>
            simp only [Session.call, hr] at hfail
            exact hfail.elim
        obtain ⟨hquota, htoken⟩ := hsame herr
        simp only [balances, Session.call, hopen'.account_eq, hopen.account_eq, hopen'.used_eq,
          hopen.used_eq, hquota, htoken]
    | settle actualQuota faults =>
      obtain ⟨-, hopen⟩ := hun.open (hun.refunded.symm.trans hc)
      obtain ⟨e, hcall⟩ | ⟨w', s', result, hcall, -, hdone⟩ :=
        call_settle_open faults actualQuota hopen hun.settled
      · rw [hcall]
      · rw [hcall] at hfail
        obtain ⟨rfl, -⟩ | ⟨e, rfl, -⟩ := hdone
        · exact hfail.elim
        · exact hfail.elim

/-! ## Every run -/

/-- The standing of a session tells its debits. -/
theorem balanced_of_standing {base : Base} {w₀ : World} {h : History} (hs : Standing base h)
    (hused : base.used = used w₀ base.account) (hremain : base.remain = w₀.token.remainQuota) : Balanced w₀ h := by
  obtain ⟨⟨w, s, job⟩, trace⟩ := h
  cases hfirst : firstSettlement trace with
  | some settlement =>
    obtain ⟨actualQuota, adjusted⟩ := settlement
    simp only [Standing, hfirst] at hs
    obtain ⟨-, -, hacc, hdebit, htoken⟩ := hs
    simp only [Balanced, hfirst, fundingDebit, tokenDebit]
    rw [hacc, hdebit, hused, htoken, hremain, ← hacc]
    refine ⟨?_, by omega⟩
    cases s.funding with
    | wallet consumed | subscription f =>
      simp only [account, used, floored, settledDebit]
      omega
  | none =>
    simp only [Standing, hfirst] at hs
    simp only [Balanced, hfirst, fundingDebit, tokenDebit, heldDebit]
    have hbalance := hs.balance
    simp only at hbalance
    by_cases hdone : refundStarted trace ∧ job.isNone
    · rw [if_pos hdone] at hbalance
      rw [if_pos hdone, hbalance.account_eq, hbalance.used_eq, hbalance.remain_eq, hused, hremain,
        tokenCharge, ite_self]
      omega
    · rw [if_neg hdone] at hbalance
      rw [if_neg hdone, hbalance.account_eq, hbalance.used_eq, hbalance.remain_eq, hused, hremain]
      omega

/-- A session as it is handed out. -/
def opened (w : World) (s : BillingSession) : History := ⟨⟨w, s, none⟩, []⟩

theorem standing_opened {base : Base} {w : World} {s : BillingSession} (h : Open base 0 w s)
    (hsettled : s.settled = false) (hrefunded : s.refunded = false) : Standing base (opened w s) :=
  unsettled_of_open rfl rfl hsettled hrefunded h

/-- Where a session of `PreConsumeBilling` started. -/
theorem preConsumeBilling_opened {ctx : Context} {faults : OpenFaults} {w w' : World}
    {info : RelayInfo} {quota : ℤ} {s : BillingSession} (hready : Ready info.requestId w.db)
    (hreset : NotReset ctx.env w.db (account s.funding)) (hwallet : faults.wallet.rollbackOk = true)
    (hsub : faults.subscription.rollbackOk = true) (h : preConsumeBilling ctx faults w info quota = some (w', .ok s)) :
    ∃ base, base.used = used w base.account ∧ base.remain = w.token.remainQuota ∧ Standing base (opened w' s) := by
  have hquota := preConsumeBilling_quota_nonneg h
  obtain hw | hs := preConsumeBilling_answers hwallet hsub w' (.ok s) h
  · obtain ⟨hopen, hsettled, hrefunded⟩ := tryWallet_opened hquota hw
    exact ⟨_, rfl, rfl, standing_opened hopen hsettled hrefunded⟩
  · obtain ⟨id, hopen, hsettled, hrefunded⟩ := trySubscription_opened hready hs
    rw [hopen.account_eq] at hreset
    exact ⟨_, usedAfterReset_of_notReset hreset, rfl, standing_opened hopen hsettled hrefunded⟩

/-- **The ledger of every billing session.**  If opening a session fails, both balances are as they
were.  If it succeeds, on a wallet or on a subscription whose quota it has not reset, then after
every sequence of calls in which the updates that take something back succeed and nothing is settled
after a refund, the debits are those the trace tells, and a further call that fails leaves the
balances as they are. -/
theorem session_ledger (ctx : Context) (faults : OpenFaults) (w w' : World) (info : RelayInfo)
    (quota : ℤ) (result : Except TheOneError BillingSession) (hready : Ready info.requestId w.db)
    (hwallet : faults.wallet.rollbackOk = true) (hsub : faults.subscription.rollbackOk = true)
    (hopen : preConsumeBilling ctx faults w info quota = some (w', result)) :
    match result with
    | .error _ => w' = w
    | .ok s => NotReset ctx.env w.db (account s.funding) →
        ∀ calls, Respects History.call Orderly (opened w' s) calls →
        let h := run History.call (opened w' s) calls
        Balanced w h ∧ ∀ c, Orderly h c → Failed (Session.call h.state c).2 →
          balances (Session.call h.state c).1 = balances h.state := by
  cases result with
  | error e => exact preConsumeBilling_answers hwallet hsub w' (.error e) hopen
  | ok s =>
    intro hreset calls hcalls h
    obtain ⟨base, hused, hremain, hstart⟩ := preConsumeBilling_opened hready hreset hwallet hsub hopen
    have hstanding : Standing base h :=
      run_preserves_of_respects (fun h c => standing_step h c) hcalls hstart
    exact ⟨balanced_of_standing hstanding hused hremain,
      fun c hc hfail => balances_of_failed hstanding hc hfail⟩

/-! ## Sessions of one user -/

def sampleContext : Context := ⟨⟨1000, Go.Location.fixed 0, fun id => some { id }, 0⟩, 0, 0⟩

def noFaults : ChargeFaults := ⟨some 1000, true, true, true⟩

def sampleFaults : OpenFaults := ⟨true, true, true, some 1000, noFaults, noFaults⟩

def sampleSub : UserSubscription :=
  { id := 7, userId := 1, planId := 1, amountTotal := 100, endTime := 2000, nextResetTime := 5000 }

/-- A user with 1000 in the wallet, 1000 on the token and a subscription of 100. -/
def sampleWorld : World where
  userQuota := 1000
  token := ⟨1000, 0⟩
  db := ⟨.single sampleSub, .empty, []⟩

def sampleInfo (billingPreference : String) : RelayInfo :=
  { userId := 1, requestId := "req", billingPreference }

theorem sampleWorld_ready : Ready "req" sampleWorld.db := ⟨by decide, by decide, by decide⟩

theorem sampleWorld_notReset (paying : Account) : NotReset sampleContext.env sampleWorld.db paying := by
  intro id _ c plan sub hfind _ h
  obtain rfl : c = sampleSub := List.mem_singleton.mp (Table.find_mem hfind)
  rw [maybeResetUserSubscriptionWithPlanTx, if_pos (by decide)] at h
  cases h
  rfl

/-- A top-up that the token refuses, one that it takes, a refund of nothing and a settlement. -/
def sampleCalls : List Call :=
  [.reserve 20 { noFaults with tokenOk := false }, .reserve 25 noFaults, .settle 20 ⟨true, true⟩,
    .refund, .runRefund ⟨true, ⟨true, true⟩, ⟨true, true⟩, ⟨true, true⟩, true, true⟩]

theorem session_ledger_sample : ∃ w s,
    preConsumeBilling sampleContext sampleFaults sampleWorld (sampleInfo "subscription_only") 10 =
      some (w, .ok s) ∧ Balanced sampleWorld (run History.call (opened w s) sampleCalls) :=
  ⟨_, _, rfl, (session_ledger sampleContext sampleFaults sampleWorld _
    (sampleInfo "subscription_only") 10 (.ok _) sampleWorld_ready rfl rfl rfl (sampleWorld_notReset _)
    sampleCalls (by decide)).1⟩

/-- The session of a request for `quota` under a billing preference, after some calls. -/
def sampleRun (billingPreference : String) (quota : ℤ) (calls : List Call) : Option History :=
  match preConsumeBilling sampleContext sampleFaults sampleWorld (sampleInfo billingPreference) quota with
  | some (w, .ok s) => some (run History.call (opened w s) calls)
  | _ => none

/-- What the trace would tell if a call either succeeded or did nothing: the first `Settle` that
returned success decides, then a `Refund` whatever it found. -/
def simpleDebit (h : History) : ℤ :=
  match h.trace.findSome? fun
      | (.settle actualQuota _, .settle (.ok _)) => some actualQuota
      | _ => none with
  | some actualQuota => actualQuota
  | none =>
    if h.trace.any fun | (.refund, _) => true | _ => false then 0
    else h.state.session.preConsumedQuota

/-- Where that reading is wrong: a `Settle` that fails on the token has already charged the wallet,
a `Refund` of nothing does not stop a later top-up, and a negative actual quota is cut off at a
quota used of zero.  The pairs are the debit and what the simple reading gives. -/
theorem session_ledger_exceptions :
    (sampleRun "wallet_only" 10 [.settle 30 ⟨true, false⟩]).map
      (fun h => (fundingDebit sampleWorld h.state, simpleDebit h)) = some (30, 10) ∧
    (sampleRun "wallet_only" 0 [.refund, .reserve 10 noFaults]).map
      (fun h => (fundingDebit sampleWorld h.state, simpleDebit h)) = some (10, 0) ∧
    (sampleRun "subscription_only" 10 [.settle (-5) ⟨true, true⟩]).map
      (fun h => (fundingDebit sampleWorld h.state, simpleDebit h)) = some (0, -5) := by
  decide

end OneApi.Billing.Ledger
