import OneApi.Billing.Session

/-!
# A session that is neither settled nor given back

The amount a session holds is spread over five counters: `preConsumedQuota`, `tokenConsumed` and
`extraReserved` of the session, `consumed` of a wallet, and `preConsumed` of a subscription with
its record.  `Open` relates them to the balances: the funding source is down by the pre-consumed
quota plus a `leak`, the token by the pre-consumed quota.  The leak is what a failed rollback of
`Reserve` has left behind; it is zero as long as rollbacks succeed.

One lemma for each call says what it makes of an open session.  The ledger of a session and the
exclusion of settlement and refund are both read off these.
-/

namespace OneApi.Billing.Invariant

open OneApi.Lib OneApi.Lib.Go OneApi.Lib.Run OneApi.Subscription.Model
open OneApi.Subscription.PreConsume OneApi.Subscription.QuotaBound
open OneApi.Subscription.RefundOnce OneApi.Billing.Session OneApi.Billing.Session.BillingSession

/-! ## Balances -/

/-- What a funding source draws on. -/
inductive Account
  | user
  | subscription (id : ℤ)
  deriving Repr, DecidableEq

def account : FundingSource → Account
  | .wallet _ => .user
  | .subscription f => .subscription f.subscriptionId

/-- The quota used of an account, for the wallet up to the constant that is never changed. -/
def used (w : World) : Account → ℤ
  | .user => -w.userQuota
  | .subscription id => usedOf w.db.subs id

/-- The quota used of a subscription does not go below zero, that of a wallet may. -/
def floored : Account → ℤ → ℤ
  | .user, x => x
  | .subscription _, x => max 0 x

/-- What a quota takes from the token of a request. -/
def tokenCharge (info : RelayInfo) (quota : ℤ) : ℤ := if info.isPlayground then 0 else quota

variable {ok : Bool} {quota : ℤ} {w' : World}

theorem quotaUpdate_ok {updated : World}
    (h : quotaUpdate ok quota updated = .ok w') : ok = true ∧ 0 ≤ quota ∧ w' = updated := by
  rw [quotaUpdate] at h
  split at h
  · cases h
  · rename_i hneg
    split at h
    · rename_i hok
      cases h
      exact ⟨hok, by omega, rfl⟩
    · cases h

theorem quotaUpdate_true (hq : 0 ≤ quota) (updated : World) : quotaUpdate true quota updated = .ok updated := by
  rw [quotaUpdate, if_neg (by omega), if_pos rfl]

/-- A delta of the user, up or down, is one update. -/
theorem userDelta_eq (w : World) (delta : ℤ) :
    (if 0 < delta then decreaseUserQuota ok w delta else increaseUserQuota ok w (-delta)) =
      if ok then .ok { w with userQuota := w.userQuota - delta } else .error .database := by
  split
  · rw [decreaseUserQuota, quotaUpdate, if_neg (by omega)]
  · rw [increaseUserQuota, quotaUpdate, if_neg (by omega), sub_eq_add_neg]

/-- So is a delta of the token. -/
theorem tokenDelta_eq (w : World) (delta : ℤ) :
    (if 0 < delta then decreaseTokenQuota ok w delta else increaseTokenQuota ok w (-delta)) =
      if ok then .ok { w with
        token := ⟨w.token.remainQuota - delta, w.token.usedQuota + delta⟩ }
      else .error .database := by
  split
  · rw [decreaseTokenQuota, quotaUpdate, if_neg (by omega)]
  · rw [increaseTokenQuota, quotaUpdate, if_neg (by omega), sub_neg_eq_add, ← sub_eq_add_neg]

variable {w : World}

theorem postConsumeDelta_ok {id delta : ℤ} (h : postConsumeDelta ok w id delta = .ok w') :
    ∃ db, postConsumeUserSubscriptionDelta ok w.db id delta = .ok db ∧ w' = { w with db } := by
  rw [postConsumeDelta] at h
  cases hd : postConsumeUserSubscriptionDelta ok w.db id delta with
  | error e => rw [hd] at h; cases h
  | ok db => rw [hd] at h; cases h; exact ⟨db, rfl, rfl⟩

/-- A delta that is written moves the quota used of the subscription, not below zero. -/
theorem usedOf_postConsume {id delta : ℤ} (hne : delta ≠ 0) (h : postConsumeDelta ok w id delta = .ok w') :
    usedOf w'.db.subs id = max 0 (usedOf w.db.subs id + delta) := by
  obtain ⟨db, hdb, rfl⟩ := postConsumeDelta_ok h
  obtain ⟨hzero, _⟩ | ⟨sub, hfind, _, rfl⟩ := postConsumeUserSubscriptionDelta_ok hdb
  · exact absurd hzero hne
  · have hid : sub.id = id := Table.find_key hfind
    subst hid
    have hold : usedOf w.db.subs sub.id = sub.amountUsed := by
      rw [usedOf, hfind, Option.map_some, Option.getD_some]
    rw [hold]
    exact @usedOf_save_self w.db.subs
      { sub with amountUsed := clampedUsed sub.amountUsed delta } sub hfind

variable {faults : ChargeFaults}

/-- **A token pre-consume** takes its quota from the token and nothing else. -/
theorem preConsumeTokenQuota_ok {info : RelayInfo} (h : preConsumeTokenQuota info faults w quota = .ok w') :
    w' = { w with token := ⟨w.token.remainQuota - tokenCharge info quota,
      w.token.usedQuota + tokenCharge info quota⟩ } := by
  rw [preConsumeTokenQuota] at h
  rw [tokenCharge]
  split at h
  · cases h
  split at h
  · rename_i hplay
    cases h
    rw [if_pos hplay, sub_zero, add_zero]
  rename_i hplay
  rw [if_neg hplay]
  split at h
  · cases h
  split at h
  · cases h
  · exact (quotaUpdate_ok h).2.2

/-! ## The subscription behind a session -/

/-- The row a session charged is there and within its bounds, and so is the record of the charge,
not marked. -/
structure Backing (db : DB) (f : SubscriptionFunding) (sub : UserSubscription) (record : PreConsumeRecord) : Prop where
  find_sub : db.subs.find f.subscriptionId = some sub
  bounded : Bounded sub
  find_record : db.records.find f.requestId = some record
  valid : ValidRecord record
  consumed : record.status = .consumed
  charged : record.userSubscriptionId = f.subscriptionId
  amount : record.preConsumed = f.preConsumed

namespace Backing

variable {db : DB} {f : SubscriptionFunding} {sub : UserSubscription} {record : PreConsumeRecord}

variable (h : Backing db f sub record)

include h in
theorem usedOf_eq : usedOf db.subs f.subscriptionId = sub.amountUsed := by
  rw [usedOf, h.find_sub, Option.map_some, Option.getD_some]

include h in
theorem id_eq : sub.id = f.subscriptionId :=
  Table.find_key h.find_sub

include h in
theorem id_pos : 0 < f.subscriptionId := by
  have := h.valid.2.2
  have := h.charged
  omega

include h in
theorem amount_pos : 0 < f.preConsumed := by
  have := h.valid.2.1
  have := h.amount
  omega

include h in
/-- A delta that is written keeps the backing. -/
theorem delta {ok : Bool} {d : ℤ} {db' : DB}
    (hd : postConsumeUserSubscriptionDelta ok db f.subscriptionId d = .ok db') :
    Backing db' f { sub with amountUsed := clampedUsed sub.amountUsed d } record := by
  obtain ⟨hzero, rfl⟩ | ⟨row, hrow, htotal, rfl⟩ := postConsumeUserSubscriptionDelta_ok hd
  · have hsame : clampedUsed sub.amountUsed d = sub.amountUsed := by
      have := h.bounded.1
      rw [clampedUsed]
      omega
    rw [hsame]
    exact h
  · obtain rfl : sub = row := Option.some.inj (h.find_sub.symm.trans hrow)
    have hfind : db.subs.find sub.id = some sub := h.id_eq.symm ▸ h.find_sub
    have hsave := Table.find_save_self (r := { sub with amountUsed := clampedUsed sub.amountUsed d }) hfind
    have hself : (db.subs.save { sub with amountUsed := clampedUsed sub.amountUsed d }).find
        f.subscriptionId = some { sub with amountUsed := clampedUsed sub.amountUsed d } := by
      rw [← h.id_eq]
      exact hsave
    exact ⟨hself, ⟨le_max_left _ _, htotal⟩, h.find_record, h.valid, h.consumed, h.charged, h.amount⟩

include h in
/-- Giving back on a backed subscription succeeds unless the database fails. -/
theorem giveBack {amount : ℤ} (hpos : 0 < amount) :
    ∃ db', postConsumeUserSubscriptionDelta true db f.subscriptionId (-amount) = .ok db' := by
  have hfind : db.subs.find sub.id = some sub := h.id_eq.symm ▸ h.find_sub
  have hid : 0 < sub.id := h.id_eq.symm ▸ h.id_pos
  have hback := postConsume_giveBack hfind hid h.bounded hpos
  rw [h.id_eq] at hback
  exact ⟨_, hback⟩

end Backing

/-! ## Open sessions -/

/-- Where a session started: its account, the quota used of it and what was left of the token. -/
structure Base where
  account : Account
  used : ℤ
  remain : ℤ

/-- What the funding source of an open session remembers. -/
def Held (base : Base) (leak : ℤ) (w : World) (s : BillingSession) : Prop :=
  match s.funding with
  | .wallet consumed => consumed = s.preConsumedQuota + leak
  | .subscription f =>
    f.preConsumed + s.extraReserved = s.preConsumedQuota ∧
      s.relayInfo.subscriptionId = f.subscriptionId ∧ 0 ≤ base.used ∧
      ∃ sub record, Backing w.db f sub record

/-- The part of `Open` that does not speak about the token. -/
structure Funded (base : Base) (leak : ℤ) (w : World) (s : BillingSession) : Prop where
  account_eq : account s.funding = base.account
  uncommitted : s.fundingSettled = false
  quota_nonneg : 0 ≤ s.preConsumedQuota
  extra_nonneg : 0 ≤ s.extraReserved
  leak_nonneg : 0 ≤ leak
  token_eq : s.tokenConsumed = s.preConsumedQuota
  used_eq : used w base.account = base.used + s.preConsumedQuota + leak
  held : Held base leak w s

/-- **The counters of an open session agree with the balances.** -/
structure Open (base : Base) (leak : ℤ) (w : World) (s : BillingSession) : Prop
    extends Funded base leak w s where
  remain_eq : w.token.remainQuota = base.remain - tokenCharge s.relayInfo s.preConsumedQuota

section Calls

variable {base : Base} {leak : ℤ} {w w' : World} {s : BillingSession}

/-- Nothing the funding source relies on reads the token. -/
theorem Funded.withToken (h : Funded base leak w s) (token : TokenQuota) : Funded base leak { w with token } s := by
  refine ⟨h.account_eq, h.uncommitted, h.quota_nonneg, h.extra_nonneg, h.leak_nonneg, h.token_eq, ?_, h.held⟩
  rw [← h.used_eq]
  cases base.account with
  | user | subscription id => rfl

theorem Funded.sync (h : Funded base leak w s) : Funded base leak w s.syncRelayInfo := by
  obtain ⟨info, funding, quota, token, extra, trusted, committed, settled, refunded⟩ := s
  cases funding with
  | wallet consumed => exact ⟨h.1, h.2, h.3, h.4, h.5, h.6, h.7, h.8⟩
  | subscription f =>
    obtain ⟨hsum, _, hbase, hback⟩ := h.held
    exact ⟨h.1, h.2, h.3, h.4, h.5, h.6, h.7, hsum, rfl, hbase, hback⟩

/-! ### Reserve -/

variable {ok : Bool} {delta : ℤ} {funding : FundingSource}

/-- A top-up of the funding source. -/
theorem reserveFunding_ok (hpos : 0 < delta)
    (h : Funded base leak w s) (hr : reserveFunding ok w delta s.funding = .ok (w', funding)) :
    Funded base leak w' (s.topUp funding delta) ∧ w'.token = w.token := by
  obtain ⟨info, source, quota, token, extra, trusted, committed, settled, refunded⟩ := s
  have hquota : 0 ≤ quota + delta := le_add_of_le_of_nonneg h.quota_nonneg hpos.le
  have hextra : 0 ≤ extra + delta := le_add_of_le_of_nonneg h.extra_nonneg hpos.le
  have htoken : token + delta = quota + delta := congrArg (· + delta) h.token_eq
  have hused := h.used_eq
  simp only at hused
  cases source with
  | wallet consumed =>
    obtain hacc : Account.user = base.account := h.account_eq
    have hheld : consumed = quota + leak := h.held
    simp only [reserveFunding] at hr
    split at hr
    · cases hr
    · rename_i w₁ hdec
      obtain ⟨-, -, rfl⟩ := quotaUpdate_ok hdec
      cases hr
      refine ⟨⟨hacc, h.uncommitted, hquota, hextra, h.leak_nonneg, htoken, ?_, ?_⟩, rfl⟩
      · rw [← hacc] at hused ⊢
        simp only [used, topUp] at hused ⊢
        omega
      · show consumed + delta = quota + delta + leak
        omega
  | subscription f =>
    obtain hacc : Account.subscription f.subscriptionId = base.account := h.account_eq
    obtain ⟨hsum, hid, hbase, sub, record, hback⟩ := h.held
    simp only at hsum hid
    simp only [reserveFunding] at hr
    split at hr
    · cases hr
    · rename_i w₁ hpost
      obtain ⟨db, hdelta, rfl⟩ := postConsumeDelta_ok hpost
      cases hr
      have hback' := hback.delta hdelta
      have hold := hback.usedOf_eq
      have hnew := hback'.usedOf_eq
      have hrow := hback.bounded.1
      rw [← hacc] at hused
      simp only [used] at hused
      refine ⟨⟨hacc, h.uncommitted, hquota, hextra, h.leak_nonneg, htoken, ?_, ?_, hid, hbase, _, _, hback'⟩, rfl⟩
      · rw [← hacc]
        simp only [used, topUp, clampedUsed] at hnew ⊢
        omega
      · show f.preConsumed + (extra + delta) = quota + delta
        omega

theorem rollbackFundingReserve_wallet (ok : Bool) (w : World) (consumed : ℤ) (hpos : 0 < delta) :
    rollbackFundingReserve ok w delta (.wallet consumed) =
      if ok then ({ w with userQuota := w.userQuota + delta }, .wallet (consumed - delta))
      else (w, .wallet consumed) := by
  rw [rollbackFundingReserve, increaseUserQuota]
  cases ok with
  | true => rw [quotaUpdate_true hpos.le, if_pos rfl]
  | false =>
    rw [quotaUpdate, if_neg (show ¬ delta < 0 by omega)]
    rfl

theorem rollbackFundingReserve_subscription (ok : Bool) {f : SubscriptionFunding}
    {sub : UserSubscription} {record : PreConsumeRecord} (h : Backing w.db f sub record) (hpos : 0 < delta) :
    ∃ db, rollbackFundingReserve ok w delta (.subscription f) = ({ w with db }, .subscription f) ∧
      Backing db f { sub with
        amountUsed := if ok then clampedUsed sub.amountUsed (-delta) else sub.amountUsed }
        record := by
  rw [rollbackFundingReserve, postConsumeDelta]
  cases ok with
  | true =>
    obtain ⟨db, hdelta⟩ := h.giveBack hpos
    rw [hdelta]
    exact ⟨db, rfl, h.delta hdelta⟩
  | false =>
    cases hd : postConsumeUserSubscriptionDelta false w.db f.subscriptionId (-delta) with
    | error e => exact ⟨w.db, rfl, h⟩
    | ok db => exact absurd hd (postConsumeUserSubscriptionDelta_failed (by omega))

/-- The rollback of a top-up.  When it fails the top-up stays behind as a leak. -/
theorem rollbackFundingReserve_open (ok : Bool)
    (hpos : 0 < delta) (hq : 0 ≤ s.preConsumedQuota) (hx : 0 ≤ s.extraReserved)
    (h : Funded base leak w (s.topUp funding delta)) :
    let r := rollbackFundingReserve ok w delta funding
    Funded base (if ok then leak else leak + delta) r.1 { s with funding := r.2 } ∧ r.1.token = w.token := by
  obtain ⟨info, source, quota, token, extra, trusted, committed, settled, refunded⟩ := s
  have htoken : token = quota := by
    have : token + delta = quota + delta := h.token_eq
    omega
  have hleak : 0 ≤ if ok then leak else leak + delta := by
    have := h.leak_nonneg
    split <;> omega
  have hused := h.used_eq
  simp only [topUp] at hused
  cases funding with
  | wallet consumed =>
    obtain hacc : Account.user = base.account := h.account_eq
    have hheld : consumed = quota + delta + leak := h.held
    rw [← hacc] at hused
    simp only [used] at hused
    rw [rollbackFundingReserve_wallet ok w consumed hpos]
    cases ok with
    | true =>
      refine ⟨⟨hacc, h.uncommitted, hq, hx, hleak, htoken, ?_, ?_⟩, rfl⟩
      · rw [← hacc]
        simp only [used, if_true]
        omega
      · show consumed - delta = quota + leak
        omega
    | false =>
      refine ⟨⟨hacc, h.uncommitted, hq, hx, hleak, htoken, ?_, ?_⟩, rfl⟩
      · rw [← hacc]
        simp only [used, Bool.false_eq_true, if_false]
        omega
      · show consumed = quota + (leak + delta)
        omega
  | subscription f =>
    obtain hacc : Account.subscription f.subscriptionId = base.account := h.account_eq
    obtain ⟨hsum, hid, hbase, sub, record, hback⟩ := h.held
    obtain ⟨db, hr, hback'⟩ := rollbackFundingReserve_subscription ok hback hpos
    have hold := hback.usedOf_eq
    have hnew := hback'.usedOf_eq
    have h₀ := h.leak_nonneg
    simp only [topUp] at hsum hid hq
    rw [← hacc] at hused
    simp only [used] at hused
    rw [hr]
    refine ⟨⟨hacc, h.uncommitted, hq, hx, hleak, htoken, ?_, ?_, hid, hbase, _, _, hback'⟩, rfl⟩
    · rw [← hacc]
      simp only [used, clampedUsed] at hnew ⊢
      rw [hnew]
      split <;> omega
    · show f.preConsumed + extra = quota
      omega

/-- The token part of a top-up. -/
theorem reserveToken_ok (hpos : 0 < delta) (h : reserveToken faults w s delta = .ok w') :
    w' = { w with token := ⟨w.token.remainQuota - tokenCharge s.relayInfo delta,
      w.token.usedQuota + tokenCharge s.relayInfo delta⟩ } := by
  rw [reserveToken] at h
  split at h
  · rename_i hguard
    have hplay : s.relayInfo.isPlayground = true := hguard.resolve_left (by omega)
    cases h
    rw [tokenCharge, if_pos hplay, sub_zero, add_zero]
  · cases hpre : preConsumeTokenQuota s.relayInfo faults w delta with
    | error e => rw [hpre] at h; cases h
    | ok w₁ =>
      rw [hpre] at h
      cases h
      exact preConsumeTokenQuota_ok hpre

@[simp] theorem syncRelayInfo_preConsumedQuota : s.syncRelayInfo.preConsumedQuota = s.preConsumedQuota := by
  rw [syncRelayInfo]
  split <;> rfl

@[simp] theorem syncRelayInfo_settled : s.syncRelayInfo.settled = s.settled := by
  rw [syncRelayInfo]
  split <;> rfl

@[simp] theorem syncRelayInfo_refunded : s.syncRelayInfo.refunded = s.refunded := by
  rw [syncRelayInfo]
  split <;> rfl

@[simp] theorem tokenCharge_syncRelayInfo :
    tokenCharge s.syncRelayInfo.relayInfo quota = tokenCharge s.relayInfo quota := by
  rw [syncRelayInfo]
  split <;> rfl

theorem tokenCharge_nonneg (info : RelayInfo) (h : 0 ≤ quota) : 0 ≤ tokenCharge info quota := by
  rw [tokenCharge]
  split <;> omega

theorem tokenCharge_add (info : RelayInfo) (a b : ℤ) :
    tokenCharge info (a + b) = tokenCharge info a + tokenCharge info b := by
  simp only [tokenCharge]
  split <;> omega

/-- **`Reserve` keeps a session open.**  The leak grows only by a rollback that fails; a call that
fails leaves the pre-consumed quota and the token as they were. -/
theorem reserve_open (faults : ChargeFaults) (targetQuota : ℤ) (h : Open base leak w s) :
    let r := reserve faults w s targetQuota
    r.2.1.settled = s.settled ∧ r.2.1.refunded = s.refunded ∧
    ∃ leak', (faults.rollbackOk = true → leak' = leak) ∧ Open base leak' r.1 r.2.1 ∧
      ((∃ e, r.2.2 = .error e) → r.2.1.preConsumedQuota = s.preConsumedQuota ∧ r.1.token = w.token) := by
  intro r
  by_cases hguard :
      s.settled ∨ s.refunded ∨ s.trusted ∨ targetQuota ≤ s.preConsumedQuota
  · have hr : r = (w, s, .ok ()) := if_pos hguard
    rw [hr]
    exact ⟨rfl, rfl, leak, fun _ => rfl, h, fun _ => ⟨rfl, rfl⟩⟩
  · have hpos : 0 < targetQuota - s.preConsumedQuota := by
      simp only [not_or] at hguard
      omega
    have hr : r = reserveDelta faults w s (targetQuota - s.preConsumedQuota) := if_neg hguard
    revert hr hpos
    generalize targetQuota - s.preConsumedQuota = delta
    intro hpos hr
    rw [hr, reserveDelta]
    cases hfund : reserveFunding faults.fundingOk w delta s.funding with
    | error e => exact ⟨rfl, rfl, leak, fun _ => rfl, h, fun _ => ⟨rfl, rfl⟩⟩
    | ok answer =>
      obtain ⟨w₁, funding⟩ := answer
      obtain ⟨hfunded, htoken⟩ := reserveFunding_ok hpos h.toFunded hfund
      simp only
      cases htok : reserveToken faults w₁ s delta with
      | error e =>
        -- the token refused: the funding source is rolled back
        obtain ⟨hroll, hsame⟩ := rollbackFundingReserve_open faults.rollbackOk hpos
          h.quota_nonneg h.extra_nonneg hfunded
        refine ⟨rfl, rfl, _, fun hok => if_pos hok, ⟨hroll, ?_⟩, fun _ => ⟨rfl, ?_⟩⟩
        · simp only [hsame, htoken]
          exact h.remain_eq
        · exact hsame.trans htoken
      | ok w₂ =>
        have hw₂ := reserveToken_ok hpos htok
        have hopen : Funded base leak w₂ (s.topUp funding delta).syncRelayInfo := by
          rw [hw₂]
          exact (hfunded.withToken _).sync
        refine ⟨syncRelayInfo_settled, syncRelayInfo_refunded, leak, fun _ => rfl, ⟨hopen, ?_⟩, fun hfail => ?_⟩
        · have hremain := h.remain_eq
          simp only [syncRelayInfo_preConsumedQuota, tokenCharge_syncRelayInfo, topUp, tokenCharge_add]
          rw [hw₂]
          simp only [htoken]
          omega
        · obtain ⟨e, he⟩ := hfail
          cases he

/-! ### Settle -/

/-- What a settlement leaves behind: the debits of the funding source and of the token. -/
structure Settled (base : Base) (funding token : ℤ) (w : World) (s : BillingSession) : Prop where
  settled : s.settled = true
  account_eq : account s.funding = base.account
  used_eq : used w base.account = floored base.account (base.used + funding)
  remain_eq : w.token.remainQuota = base.remain - tokenCharge s.relayInfo token

/-- The adjustment of the funding source. -/
theorem fundingSettle_ok (hne : delta ≠ 0) (hs : funding.settle ok w delta = .ok w') :
    used w' (account funding) = floored (account funding) (used w (account funding) + delta) ∧ w'.token = w.token := by
  cases funding with
  | wallet consumed =>
    simp only [FundingSource.settle, if_neg hne, userDelta_eq] at hs
    split at hs
    · cases hs
      refine ⟨?_, rfl⟩
      simp only [account, used, floored]
      omega
    · cases hs
  | subscription f =>
    simp only [FundingSource.settle, if_neg hne] at hs
    cases hpost : postConsumeDelta ok w f.subscriptionId delta with
    | error e => rw [hpost] at hs; cases hs
    | ok w₁ =>
      rw [hpost] at hs
      cases hs
      refine ⟨usedOf_postConsume hne hpost, ?_⟩
      obtain ⟨db, -, rfl⟩ := postConsumeDelta_ok hpost
      rfl

/-- The adjustment of the token. -/
theorem settleToken_ok (h : settleToken ok w s delta = .ok w') :
    w' = { w with token := ⟨w.token.remainQuota - tokenCharge s.relayInfo delta,
      w.token.usedQuota + tokenCharge s.relayInfo delta⟩ } := by
  rw [settleToken] at h
  rw [tokenCharge]
  split at h
  · rename_i hplay
    cases h
    rw [if_pos hplay, sub_zero, add_zero]
  · rename_i hplay
    rw [if_neg hplay]
    rw [tokenDelta_eq] at h
    split at h
    · cases h
      rfl
    · cases h

theorem used_withToken (w : World) (token : TokenQuota) (acct : Account) :
    used { w with token } acct = used w acct := by
  cases acct with
  | user | subscription id => rfl

theorem markSettled_fields (delta quota : ℤ) :
    (s.markSettled delta).settled = true ∧ (s.markSettled delta).funding = s.funding ∧
      tokenCharge (s.markSettled delta).relayInfo quota = tokenCharge s.relayInfo quota := by
  refine ⟨rfl, rfl, ?_⟩
  rw [markSettled]
  cases s.funding with
  | wallet consumed | subscription f => rfl

/-- The quota used of an open session is one that its account can show. -/
theorem Funded.floored_eq (h : Funded base leak w s) :
    floored base.account (base.used + s.preConsumedQuota + leak) = base.used + s.preConsumedQuota + leak := by
  have hquota := h.quota_nonneg
  have hleak := h.leak_nonneg
  have hheld := h.held
  rw [← h.account_eq]
  rw [Held] at hheld
  cases hf : s.funding with
  | wallet consumed => rfl
  | subscription f =>
    rw [hf] at hheld
    have hbase := hheld.2.2.1
    show max 0 _ = _
    omega

/-- **`Settle` on an open session** either fails on the funding source and changes nothing, or
settles: the funding source is then down by the actual quota (and the leak), the token by the
actual quota or, when its own adjustment failed, still by the pre-consumed one. -/
theorem settle_open (faults : SettleFaults) (actualQuota : ℤ) (h : Open base leak w s)
    (hunsettled : s.settled = false) :
    (∃ e, settle faults w s actualQuota = (w, s, .error (.funding e))) ∨
    ∃ w' s' result, settle faults w s actualQuota = (w', s', result) ∧
      s'.preConsumedQuota = s.preConsumedQuota ∧
      ((result = .ok () ∧ Settled base (actualQuota + leak) actualQuota w' s') ∨
        ∃ e, result = .error (.token e) ∧ Settled base (actualQuota + leak) s.preConsumedQuota w' s') := by
  have hused := h.used_eq
  have hremain := h.remain_eq
  rw [settle, if_neg (by rw [hunsettled]; decide)]
  simp only
  by_cases hzero : actualQuota - s.preConsumedQuota = 0
  · rw [if_pos hzero]
    have hactual : actualQuota = s.preConsumedQuota := by omega
    refine .inr ⟨_, _, _, rfl, rfl, .inl ⟨rfl, rfl, h.account_eq, ?_, ?_⟩⟩
    · rw [hactual, ← add_assoc, h.floored_eq]
      exact hused
    · rw [hactual]
      exact hremain
  · rw [if_neg hzero, h.uncommitted]
    cases hfund : s.funding.settle faults.fundingOk w (actualQuota - s.preConsumedQuota) with
    | error e => exact .inl ⟨e, rfl⟩
    | ok w₁ =>
      obtain ⟨hused₁, htoken₁⟩ := fundingSettle_ok hzero hfund
      rw [h.account_eq] at hused₁
      have hdebit : used w₁ base.account = floored base.account (base.used + (actualQuota + leak)) := by
        rw [hused₁, hused]
        congr 1
        omega
      simp only [Bool.false_eq_true, if_false]
      cases htok : settleToken faults.tokenOk w₁ s (actualQuota - s.preConsumedQuota) with
      | error e =>
        obtain ⟨hset, hsrc, hcharge⟩ := markSettled_fields (actualQuota - s.preConsumedQuota) s.preConsumedQuota
        refine .inr ⟨_, _, _, rfl, rfl, .inr ⟨e, rfl, hset, ?_, hdebit, ?_⟩⟩
        · rw [hsrc]
          exact h.account_eq
        · rw [hcharge, htoken₁]
          exact hremain
      | ok w₂ =>
        obtain rfl := settleToken_ok htok
        obtain ⟨hset, hsrc, hcharge⟩ := markSettled_fields (actualQuota - s.preConsumedQuota) actualQuota
        refine .inr ⟨_, _, _, rfl, rfl, .inl ⟨rfl, hset, ?_, ?_, ?_⟩⟩
        · rw [hsrc]
          exact h.account_eq
        · rw [used_withToken]
          exact hdebit
        · have hsplit := tokenCharge_add s.relayInfo s.preConsumedQuota
            (actualQuota - s.preConsumedQuota)
          rw [add_sub_cancel] at hsplit
          rw [hcharge]
          simp only [htoken₁]
          omega

/-! ### Refund -/

/-- The three attempts on the pre-consume record. -/
def attempts (faults : RefundJobFaults) : List RefundFaults :=
  [faults.attempt₁, faults.attempt₂, faults.attempt₃]

/-- The updates of a refund job succeed, the record giving its quota back exactly once. -/
def Works (faults : RefundJobFaults) : Prop :=
  faults.walletOk = true ∧ giveBacks (attempts faults) = 1 ∧ faults.extraOk = true ∧ faults.tokenOk = true

instance (faults : RefundJobFaults) : Decidable (Works faults) :=
  inferInstanceAs (Decidable (_ ∧ _))

/-- The row of a subscription after the refund of its record. -/
theorem refund_subscription {f : SubscriptionFunding} {sub : UserSubscription}
    {record : PreConsumeRecord} (faults : RefundJobFaults) (h : Backing w.db f sub record) :
    let w' := (FundingSource.subscription f).refund faults w
    w'.token = w.token ∧ w'.db.subs.find f.subscriptionId = some { sub with
      amountUsed := max 0 (sub.amountUsed - giveBacks (attempts faults) * f.preConsumed) } := by
  have hpos := h.amount_pos
  have hreq : record.requestId = f.requestId := Table.find_key h.find_record
  have hrun := applyCall_eq_run f.requestId w.db (.withRetry faults.attempt₁ faults.attempt₂ faults.attempt₃)
  have hrow := find_attempts (hreq.symm ▸ h.find_record) h.valid h.consumed (attempts faults)
    (h.id_eq.symm ▸ h.find_sub) (h.id_eq.trans h.charged.symm) h.bounded
  rw [hreq, h.amount] at hrow
  simp only [FundingSource.refund, if_neg (show ¬ f.preConsumed ≤ 0 by omega)]
  refine ⟨trivial, ?_⟩
  rw [← h.id_eq, show (refundWithRetry (refundRequest f.requestId) faults.attempt₁ faults.attempt₂
    faults.attempt₃ w.db).1 = run (attempt f.requestId) w.db (attempts faults) from hrun]
  exact hrow

/-- The top-ups of a subscription are taken back from the row, unless the database fails. -/
theorem refundExtra_subscription (job : RefundJob) (f : SubscriptionFunding) {row : UserSubscription}
    (hrow : w.db.subs.find row.id = some row) (hid : 0 < row.id) (hb : Bounded row)
    (hjob : job.subscriptionId = row.id) (hextra : 0 ≤ job.extraReserved) :
    let w' := refundExtra ok w job (.subscription f)
    w'.token = w.token ∧ usedOf w'.db.subs row.id =
      if ok then max 0 (row.amountUsed - job.extraReserved) else row.amountUsed := by
  have hrowUsed : usedOf w.db.subs row.id = row.amountUsed := by
    rw [usedOf, hrow, Option.map_some, Option.getD_some]
  have h₀ := hb.1
  by_cases hpos : 0 < job.extraReserved
  · have hguard : 0 < job.extraReserved ∧ 0 < job.subscriptionId := ⟨hpos, hjob.symm ▸ hid⟩
    simp only [refundExtra]
    rw [if_pos hguard, postConsumeDelta, hjob]
    cases ok with
    | true =>
      rw [postConsume_giveBack hrow hid hb hpos]
      refine ⟨rfl, ?_⟩
      rw [if_pos rfl, sub_eq_add_neg]
      exact @usedOf_save_self _ { row with
        amountUsed := clampedUsed row.amountUsed (-job.extraReserved) } _ hrow
    | false =>
      cases hd : postConsumeUserSubscriptionDelta false w.db row.id (-job.extraReserved) with
      | error e => exact ⟨rfl, hrowUsed⟩
      | ok db => exact absurd hd (postConsumeUserSubscriptionDelta_failed (by omega))
  · have hnone : refundExtra ok w job (.subscription f) = w := by
      rw [refundExtra, if_neg (fun h => hpos h.1)]
    rw [hnone]
    refine ⟨rfl, ?_⟩
    rw [hrowUsed]
    split
    · omega
    · rfl

theorem refundToken_eq {job : RefundJob} (h : 0 ≤ job.tokenConsumed) (acct : Account) :
    used (refundToken ok w job) acct = used w acct ∧
      (refundToken ok w job).token.remainQuota = w.token.remainQuota +
        if ok then (if job.isPlayground then 0 else job.tokenConsumed) else 0 := by
  rw [refundToken]
  by_cases hguard : 0 < job.tokenConsumed ∧ ¬ job.isPlayground
  · rw [if_pos hguard, increaseTokenQuota]
    cases ok with
    | true =>
      rw [quotaUpdate_true h, if_pos rfl, if_neg hguard.2]
      exact ⟨used_withToken w _ acct, rfl⟩
    | false =>
      rw [quotaUpdate, if_neg (show ¬ job.tokenConsumed < 0 by omega)]
      exact ⟨rfl, (add_zero _).symm⟩
  · rw [if_neg hguard]
    have hnone : (if job.isPlayground then 0 else job.tokenConsumed) = 0 := by
      split
      · rfl
      · rename_i hplay
        have : ¬ 0 < job.tokenConsumed := fun hpos => hguard ⟨hpos, hplay⟩
        omega
    rw [hnone, ite_self, add_zero]
    exact ⟨rfl, rfl⟩

/-- The part of the job that gives back to the funding source. -/
theorem refundFunding_open (faults : RefundJobFaults) (h : Open base leak w s)
    (hback : giveBacks (attempts faults) ≤ 1) :
    let w' := refundExtra faults.extraOk (s.funding.refund faults w) s.refundJob s.funding
    w'.token = w.token ∧ base.used ≤ used w' base.account ∧
      (Works faults → leak = 0 → used w' base.account = base.used) := by
  have hquota := h.quota_nonneg
  have hleak := h.leak_nonneg
  have hused := h.used_eq
  have hheld := h.held
  have hacc := h.account_eq
  rw [Held] at hheld
  cases hf : s.funding with
  | wallet consumed =>
    rw [hf] at hheld hacc
    rw [← hacc] at hused ⊢
    simp only [account, used, refundExtra, FundingSource.refund] at hused ⊢
    split
    · exact ⟨rfl, by omega, fun _ _ => by omega⟩
    · rename_i hpos
      rw [increaseUserQuota]
      cases hok : faults.walletOk with
      | true =>
        rw [quotaUpdate_true (by omega)]
        exact ⟨rfl, by simp only; omega, fun _ _ => by simp only; omega⟩
      | false =>
        rw [quotaUpdate, if_neg (by omega)]
        refine ⟨rfl, ?_, fun hworks => ?_⟩
        · show base.used ≤ -w.userQuota
          omega
        · exact absurd hworks.1 (by rw [hok]; decide)
  | subscription f =>
    rw [hf] at hheld hacc
    obtain ⟨hsum, hid, hbase, sub, record, hbacking⟩ := hheld
    have hpre := hbacking.amount_pos
    have hextra := h.extra_nonneg
    have hsub := hbacking.usedOf_eq
    rw [← hacc] at hused ⊢
    simp only [account, used] at hused ⊢
    obtain ⟨htoken, hfind⟩ := refund_subscription faults hbacking
    -- at most one attempt gives back, so the row stays above where the session started
    obtain ⟨g, hg⟩ : ∃ g : ℤ, (giveBacks (attempts faults) : ℤ) * f.preConsumed = g ∧
        0 ≤ g ∧ g ≤ f.preConsumed ∧ (giveBacks (attempts faults) = 1 → g = f.preConsumed) := by
      obtain hnone | hone : giveBacks (attempts faults) = 0 ∨ giveBacks (attempts faults) = 1 := by
        omega
      · exact ⟨0, by rw [hnone]; simp, le_rfl, hpre.le, by rw [hnone]; omega⟩
      · exact ⟨f.preConsumed, by rw [hone]; simp, hpre.le, le_rfl, fun _ => rfl⟩
    obtain ⟨hgeq, hg₀, hg₁, hgone⟩ := hg
    rw [hgeq] at hfind
    have hrowId : sub.id = f.subscriptionId := hbacking.id_eq
    have hbounded : Bounded { sub with amountUsed := max 0 (sub.amountUsed - g) } := by
      refine ⟨le_max_left _ _, fun htotal => ?_⟩
      have := hbacking.bounded.2 htotal
      simp only
      omega
    obtain ⟨htoken', hused'⟩ := refundExtra_subscription s.refundJob f
      (hrowId.symm ▸ hfind) (hrowId.symm ▸ hbacking.id_pos) hbounded (hid.trans hrowId.symm)
      hextra
    simp only [hrowId, refundJob] at hused'
    refine ⟨htoken'.trans htoken, ?_, fun hworks hzero => ?_⟩
    · simp only [refundJob]
      rw [hused']
      split <;> omega
    · have hgive := hgone hworks.2.1
      simp only [refundJob]
      rw [hused', if_pos hworks.2.2.1]
      omega

/-- **The refund job of an open session** leaves no debit below zero, as long as the record gives
back at most once; when all its updates succeed and nothing has leaked it leaves no debit. -/
theorem runRefundJob_open (faults : RefundJobFaults) (h : Open base leak w s)
    (hback : giveBacks (attempts faults) ≤ 1) :
    let w' := runRefundJob faults w s.funding s.refundJob
    base.used ≤ used w' base.account ∧ w'.token.remainQuota ≤ base.remain ∧
      (Works faults → leak = 0 → used w' base.account = base.used ∧ w'.token.remainQuota = base.remain) := by
  have hquota := h.quota_nonneg
  have htoken : s.refundJob.tokenConsumed = s.preConsumedQuota := h.token_eq
  have hremain := h.remain_eq
  obtain ⟨hsame, hle, heq⟩ := refundFunding_open faults h hback
  simp only [runRefundJob]
  set w₂ := refundExtra faults.extraOk (s.funding.refund faults w) s.refundJob s.funding with hw₂
  obtain ⟨hused, htok⟩ := refundToken_eq (htoken.symm ▸ hquota) base.account
  have hcharge := tokenCharge_nonneg s.relayInfo hquota
  have hgiven : (if s.refundJob.isPlayground then 0 else s.refundJob.tokenConsumed) =
      tokenCharge s.relayInfo s.preConsumedQuota := by
    rw [htoken]
    rfl
  rw [hgiven, hsame, hremain] at htok
  rw [hused, htok]
  refine ⟨hle, ?_, fun hworks hzero => ⟨heq hworks hzero, ?_⟩⟩
  · split <;> omega
  · rw [if_pos hworks.2.2.2]
    omega

end Calls

/-! ## Calls and the flags of a session -/

section Flags

variable {base : Base} {leak : ℤ} {st : State}

/-- The counters do not depend on whether the session is settled or refunded. -/
theorem Open.withFlags {w : World} {s : BillingSession} (h : Open base leak w s)
    (settled refunded : Bool) : Open base leak w { s with settled, refunded } :=
  ⟨⟨h.account_eq, h.uncommitted, h.quota_nonneg, h.extra_nonneg, h.leak_nonneg, h.token_eq,
    h.used_eq, h.held⟩, h.remain_eq⟩

/-- `Refund` does nothing, or marks the session and leaves the job to run. -/
theorem call_refund (st : State) :
    call st .refund = (st, .refund false) ∨
      st.session.refunded = false ∧
        call st .refund = (⟨st.world, { st.session with refunded := true },
          some st.session.refundJob⟩, .refund true) := by
  by_cases hguard : st.session.settled ∨ st.session.refunded ∨ ¬ st.session.needsRefund
  · have hr : st.session.refund = (st.session, none) := if_pos hguard
    exact .inl (by simp only [call, hr])
  · have hr : st.session.refund =
        ({ st.session with refunded := true }, some st.session.refundJob) := if_neg hguard
    simp only [not_or, Bool.not_eq_true] at hguard
    exact .inr ⟨hguard.2.1, by simp only [call, hr]⟩

theorem call_settle_open (faults : SettleFaults) (actualQuota : ℤ)
    (h : Open base leak st.world st.session) (hunsettled : st.session.settled = false) :
    (∃ e, call st (.settle actualQuota faults) = (st, .settle (.error (.funding e)))) ∨
    ∃ w s result, call st (.settle actualQuota faults) = (⟨w, s, st.job⟩, .settle result) ∧
      s.preConsumedQuota = st.session.preConsumedQuota ∧
      ((result = .ok () ∧ Settled base (actualQuota + leak) actualQuota w s) ∨
        ∃ e, result = .error (.token e) ∧ Settled base (actualQuota + leak) st.session.preConsumedQuota w s) := by
  obtain ⟨e, hr⟩ | ⟨w, s, result, hr, hquota, hdone⟩ :=
    settle_open faults actualQuota h hunsettled
  · exact .inl ⟨e, by simp only [call, hr]⟩
  · exact .inr ⟨w, s, result, by simp only [call, hr], hquota, hdone⟩

/-- A settled session with no job to run is not changed by any call. -/
theorem call_settled (hsettled : st.session.settled = true) (hjob : st.job = none) (c : Call) : (call st c).1 = st := by
  obtain ⟨w, s, job⟩ := st
  simp only at hsettled hjob
  cases c with
  | reserve targetQuota faults =>
    have hr : reserve faults w s targetQuota = (w, s, .ok ()) := if_pos (.inl hsettled)
    simp only [call, hr]
  | settle actualQuota faults =>
    have hr : settle faults w s actualQuota = (w, s, .ok ()) := if_pos hsettled
    simp only [call, hr]
  | refund =>
    have hr : s.refund = (s, none) := if_pos (.inl hsettled)
    simp only [call, hr]
  | runRefund faults => simp only [call, hjob]

/-- A refunded session takes no top-up. -/
theorem reserve_refunded (hrefunded : st.session.refunded = true) (targetQuota : ℤ) :
    call st (.reserve targetQuota faults) = (st, .reserve (.ok ())) := by
  have hr : reserve faults st.world st.session targetQuota = (st.world, st.session, .ok ()) :=
    if_pos (.inr (.inl hrefunded))
  simp only [call, hr]

end Flags

end OneApi.Billing.Invariant
