import OneApi.Billing.Ledger

/-!
# Settlement against refund

A session should either be settled or be given back, whatever the order of the calls and whichever
updates fail.  `Refund` sees to its half: it does nothing on a settled session.  `Settle` does not
look at `refunded`, so a settlement after a refund applies its delta to a funding source that has
already got everything back.

The result below is the exclusion for all runs in which a refunded session is not settled for
another quota than the pre-consumed one, and in which a refund of a pre-consume record gives back at
most once.  Updates may fail otherwise as they like, those that take something back included.
-/

namespace OneApi.Billing.Exclusive

open OneApi.Lib OneApi.Lib.Run OneApi.Subscription.RefundOnce OneApi.Billing.Session
open OneApi.Billing.Session.BillingSession OneApi.Billing.Invariant OneApi.Billing.Opening
open OneApi.Billing.Ledger

/-! ## Effects -/

/-- A session with what has happened to its funding source: whether a settlement moved it, and
whether a refund job did. -/
structure Audit where
  state : State
  settlementApplied : Bool
  preConsumedGivenBack : Bool

/-- The funding source has moved between two states of a session. -/
def moved (st st' : State) : Bool :=
  used st'.world (account st.session.funding) ≠ used st.world (account st.session.funding)

def Audit.call (a : Audit) (c : Call) : Audit :=
  let st' := (Session.call a.state c).1
  match c with
  | .settle _ _ => ⟨st', a.settlementApplied || moved a.state st', a.preConsumedGivenBack⟩
  | .runRefund _ => ⟨st', a.settlementApplied, a.preConsumedGivenBack || moved a.state st'⟩
  | _ => ⟨st', a.settlementApplied, a.preConsumedGivenBack⟩

/-- A session as it is handed out. -/
def Audit.start (w : World) (s : BillingSession) : Audit := ⟨⟨w, s, none⟩, false, false⟩

/-- The net debit of the funding source: what the session pre-consumed and what has moved since. -/
def netDebit (start st : State) : ℤ :=
  start.session.preConsumedQuota + used st.world (account st.session.funding) -
    used start.world (account start.session.funding)

def netTokenDebit (start st : State) : ℤ :=
  tokenCharge start.session.relayInfo start.session.preConsumedQuota +
    start.world.token.remainQuota - st.world.token.remainQuota

/-- A refunded session is settled for its pre-consumed quota at most, and a refund of the record
gives back at most once. -/
def Separate (a : Audit) : Call → Prop
  | .settle actualQuota _ =>
    a.state.session.refunded = false ∨ a.state.session.settled = true ∨ actualQuota = a.state.session.preConsumedQuota
  | .runRefund faults => giveBacks (attempts faults) ≤ 1
  | _ => True

instance (a : Audit) : DecidablePred (Separate a)
  | .settle actualQuota _ =>
    inferInstanceAs (Decidable (a.state.session.refunded = false ∨
      a.state.session.settled = true ∨ actualQuota = a.state.session.preConsumedQuota))
  | .runRefund faults => inferInstanceAs (Decidable (giveBacks (attempts faults) ≤ 1))
  | .reserve _ _ => isTrue trivial
  | .refund => isTrue trivial

/-- The actual quota of a settlement is not negative. -/
def NonnegQuota : Call → Prop
  | .settle actualQuota _ => 0 ≤ actualQuota
  | _ => True

instance : DecidablePred NonnegQuota
  | .settle actualQuota _ => inferInstanceAs (Decidable (0 ≤ actualQuota))
  | .runRefund _ => isTrue trivial
  | .reserve _ _ => isTrue trivial
  | .refund => isTrue trivial

/-! ## Phases -/

/-- Neither balance is above where it started. -/
structure InDebit (base : Base) (st : State) : Prop where
  account_eq : account st.session.funding = base.account
  used_le : base.used ≤ used st.world base.account
  remain_le : st.world.token.remainQuota ≤ base.remain

/-- The phases of a session; `nonneg` stands for settlements whose quotas are not negative. -/
inductive Phase (base : Base) (nonneg : Prop) : Audit → Prop
  | reserved {st : State} (leak : ℤ) (settled : st.session.settled = false)
      (refunded : st.session.refunded = false) (job : st.job = none)
      (isOpen : Open base leak st.world st.session) : Phase base nonneg ⟨st, false, false⟩
  | settled {st : State} {applied : Bool} (settled : st.session.settled = true)
      (job : st.job = none) (debit : nonneg → InDebit base st) :
      Phase base nonneg ⟨st, applied, false⟩
  | refunding {st : State} (leak : ℤ) (refunded : st.session.refunded = true)
      (job : st.job = some st.session.refundJob)
      (isOpen : Open base leak st.world st.session) : Phase base nonneg ⟨st, false, false⟩
  | refunded {st : State} {applied : Bool} (refunded : st.session.refunded = true)
      (job : st.job = none) (debit : InDebit base st) : Phase base nonneg ⟨st, false, applied⟩

section Step

variable {base : Base} {nonneg : Prop} {st : State}

theorem moved_self : moved st st = false := by
  simp [moved]

variable {leak : ℤ}

theorem inDebit_of_open (h : Open base leak st.world st.session) : InDebit base st := by
  have hquota := h.quota_nonneg
  have hleak := h.leak_nonneg
  have hused := h.used_eq
  have hremain := h.remain_eq
  have hcharge := tokenCharge_nonneg st.session.relayInfo hquota
  exact ⟨h.account_eq, by omega, by omega⟩

/-- A settlement for quotas that are not negative leaves a debit. -/
theorem inDebit_of_settled {funding token : ℤ} {w : World} {s : BillingSession}
    (h : Settled base funding token w s) (hfunding : 0 ≤ funding) (htoken : 0 ≤ token) :
    InDebit base ⟨w, s, st.job⟩ := by
  have hremain := h.remain_eq
  have hcharge := tokenCharge_nonneg s.relayInfo htoken
  refine ⟨h.account_eq, ?_, by simp only; omega⟩
  simp only [h.used_eq]
  cases base.account with
  | user | subscription id =>
    simp only [floored]
    omega

/-- **A session that holds its quota.** -/
theorem phase_reserved (c : Call) (hnonneg : nonneg → NonnegQuota c)
    (hsettled : st.session.settled = false) (hrefunded : st.session.refunded = false)
    (hjob : st.job = none) (hopen : Open base leak st.world st.session) :
    Phase base nonneg (Audit.call ⟨st, false, false⟩ c) := by
  cases c with
  | reserve targetQuota faults =>
    obtain ⟨hset, href, leak', -, hopen', -⟩ := reserve_open faults targetQuota hopen
    exact .reserved leak' (hset.trans hsettled) (href.trans hrefunded) hjob hopen'
  | settle actualQuota faults =>
    have hleak := hopen.leak_nonneg
    obtain ⟨e, hcall⟩ | ⟨w', s', result, hcall, -, hdone⟩ :=
      call_settle_open faults actualQuota hopen hsettled
    · simp only [Audit.call, hcall, moved_self, Bool.or_false]
      exact .reserved leak hsettled hrefunded hjob hopen
    · simp only [Audit.call, hcall]
      obtain ⟨-, hset⟩ | ⟨e, -, hset⟩ := hdone
      · refine .settled hset.settled hjob fun hn => ?_
        have hactual : 0 ≤ actualQuota := hnonneg hn
        exact inDebit_of_settled hset (by omega) hactual
      · refine .settled hset.settled hjob fun hn => ?_
        have hactual : 0 ≤ actualQuota := hnonneg hn
        exact inDebit_of_settled hset (by omega) hopen.quota_nonneg
  | refund =>
    obtain hcall | ⟨-, hcall⟩ := call_refund st
    · simp only [Audit.call, hcall]
      exact .reserved leak hsettled hrefunded hjob hopen
    · simp only [Audit.call, hcall]
      exact .refunding leak rfl rfl (hopen.withFlags st.session.settled true)
  | runRefund faults =>
    have hcall : Session.call st (.runRefund faults) = (st, .runRefund) := by
      simp only [Session.call, hjob]
    simp only [Audit.call, hcall, moved_self, Bool.or_false]
    exact .reserved leak hsettled hrefunded hjob hopen

variable {applied : Bool}

/-- No call moves a settled session. -/
theorem phase_settled (c : Call) (hsettled : st.session.settled = true)
    (hjob : st.job = none) (hdebit : nonneg → InDebit base st) :
    Phase base nonneg (Audit.call ⟨st, applied, false⟩ c) := by
  have hsame := call_settled hsettled hjob c
  cases c with
  | reserve targetQuota faults | refund =>
    simp only [Audit.call, hsame]
    exact .settled hsettled hjob hdebit
  | settle actualQuota faults | runRefund faults =>
    simp only [Audit.call, hsame, moved_self, Bool.or_false]
    exact .settled hsettled hjob hdebit

/-- What a call may do to a refunded session: a settlement for the pre-consumed quota marks it
settled, which leaves everything else alone. -/
theorem call_settle_refunded {actualQuota : ℤ} (faults : SettleFaults)
    (hsep : st.session.settled = true ∨ actualQuota = st.session.preConsumedQuota) :
    ∃ settled o, Session.call st (.settle actualQuota faults) =
      ({ st with session := { st.session with settled } }, o) := by
  cases hset : st.session.settled with
  | true =>
    have hr : settle faults st.world st.session actualQuota = (st.world, st.session, .ok ()) :=
      if_pos hset
    refine ⟨true, .settle (.ok ()), ?_⟩
    simp only [Session.call, hr]
    rw [← hset]
  | false =>
    have hactual : actualQuota - st.session.preConsumedQuota = 0 := by
      obtain h | h := hsep
      · rw [hset] at h
        cases h
      · omega
    have hr : settle faults st.world st.session actualQuota =
        (st.world, { st.session with settled := true }, .ok ()) := by
      rw [settle, if_neg (by rw [hset]; decide)]
      exact if_pos hactual
    exact ⟨true, .settle (.ok ()), by simp only [Session.call, hr]⟩

/-- Beside its job, a call of a refunded session changes at most whether it is settled. -/
theorem call_refunded {c : Call} (hsep : Separate ⟨st, false, applied⟩ c)
    (hrefunded : st.session.refunded = true) (hjob : ∀ faults, c ≠ .runRefund faults) :
    ∃ settled, Audit.call ⟨st, false, applied⟩ c =
      ⟨{ st with session := { st.session with settled } }, false, applied⟩ := by
  cases c with
  | reserve targetQuota faults =>
    refine ⟨st.session.settled, ?_⟩
    simp only [Audit.call, reserve_refunded hrefunded]
  | settle actualQuota faults =>
    obtain ⟨settled, o, hcall⟩ := call_settle_refunded faults (hsep.resolve_left (by simp only [hrefunded]; decide))
    have hsame : moved st { st with session := { st.session with settled } } = false :=
      moved_self
    refine ⟨settled, ?_⟩
    simp only [Audit.call, hcall, hsame, Bool.or_false]
  | refund =>
    refine ⟨st.session.settled, ?_⟩
    obtain hcall | ⟨hnot, -⟩ := call_refund st
    · simp only [Audit.call, hcall]
    · rw [hrefunded] at hnot
      cases hnot
  | runRefund faults => exact (hjob faults rfl).elim

/-- **A refunded session whose job is still to run.** -/
theorem phase_refunding (c : Call) (hsep : Separate ⟨st, false, false⟩ c)
    (hrefunded : st.session.refunded = true) (hjob : st.job = some st.session.refundJob)
    (hopen : Open base leak st.world st.session) : Phase base nonneg (Audit.call ⟨st, false, false⟩ c) := by
  cases c with
  | runRefund faults =>
    obtain ⟨hused, hremain, -⟩ := runRefundJob_open faults hopen hsep
    simp only [Audit.call, Session.call, hjob]
    exact .refunded hrefunded rfl ⟨hopen.account_eq, hused, hremain⟩
  | _ =>
    obtain ⟨settled, hcall⟩ := call_refunded hsep hrefunded fun _ h => by cases h
    rw [hcall]
    exact .refunding leak hrefunded hjob (hopen.withFlags settled st.session.refunded)

/-- **A session that has been given back.** -/
theorem phase_refunded (c : Call) (hsep : Separate ⟨st, false, applied⟩ c)
    (hrefunded : st.session.refunded = true) (hjob : st.job = none) (hdebit : InDebit base st) :
    Phase base nonneg (Audit.call ⟨st, false, applied⟩ c) := by
  cases c with
  | runRefund faults =>
    have hcall : Session.call st (.runRefund faults) = (st, .runRefund) := by
      simp only [Session.call, hjob]
    simp only [Audit.call, hcall]
    exact .refunded hrefunded hjob hdebit
  | _ =>
    obtain ⟨settled, hcall⟩ := call_refunded hsep hrefunded fun _ h => by cases h
    rw [hcall]
    exact .refunded hrefunded hjob ⟨hdebit.account_eq, hdebit.used_le, hdebit.remain_le⟩

/-- **Every separate call keeps the phase of a session.** -/
theorem phase_step (a : Audit) (c : Call) (hc : Separate a c ∧ (nonneg → NonnegQuota c))
    (h : Phase base nonneg a) : Phase base nonneg (a.call c) := by
  cases h with
  | reserved leak hsettled hrefunded hjob hopen =>
    exact phase_reserved c hc.2 hsettled hrefunded hjob hopen
  | settled hsettled hjob hdebit => exact phase_settled c hsettled hjob hdebit
  | refunding leak hrefunded hjob hopen => exact phase_refunding c hc.1 hrefunded hjob hopen
  | refunded hrefunded hjob hdebit => exact phase_refunded c hc.1 hrefunded hjob hdebit

end Step

/-! ## Every run -/

/-- One of the two branches of `NewBillingSession` has opened the session. -/
def Opens (w : World) (info : RelayInfo) (w' : World) (s : BillingSession) : Prop :=
  (∃ ctx userQuota faults quota, 0 ≤ quota ∧
    tryWallet ctx userQuota faults w info quota = some (w', .ok s)) ∨
  ∃ ctx faults quota, trySubscription ctx faults w info quota = some (w', .ok s)

theorem phase_start {w w' : World} {info : RelayInfo} {s : BillingSession}
    (hready : Ready info.requestId w.db) (h : Opens w info w' s) (nonneg : Prop) :
    ∃ base, Open base 0 w' s ∧ Phase base nonneg (Audit.start w' s) := by
  obtain ⟨ctx, userQuota, faults, quota, hquota, hw⟩ | ⟨ctx, faults, quota, hs⟩ := h
  · obtain ⟨hopen, hsettled, hrefunded⟩ := tryWallet_opened hquota hw
    exact ⟨_, hopen, .reserved 0 hsettled hrefunded rfl hopen⟩
  · obtain ⟨id, hopen, hsettled, hrefunded⟩ := trySubscription_opened hready hs
    exact ⟨_, hopen, .reserved 0 hsettled hrefunded rfl hopen⟩

theorem Phase.exclusive {base : Base} {nonneg : Prop} {a : Audit} (h : Phase base nonneg a) :
    ¬ (a.settlementApplied = true ∧ a.preConsumedGivenBack = true) := by
  cases h with
  | reserved leak hsettled hrefunded hjob hopen | refunding leak hrefunded hjob hopen
  | refunded hrefunded hjob hdebit => exact fun hboth => Bool.false_ne_true hboth.1
  | settled hsettled hjob hdebit => exact fun hboth => Bool.false_ne_true hboth.2

theorem Phase.inDebit {base : Base} {nonneg : Prop} {a : Audit} (h : Phase base nonneg a)
    (hn : nonneg) : InDebit base a.state := by
  cases h with
  | reserved leak hsettled hrefunded hjob hopen | refunding leak hrefunded hjob hopen =>
    exact inDebit_of_open hopen
  | settled hsettled hjob hdebit => exact hdebit hn
  | refunded hrefunded hjob hdebit => exact hdebit

/-- **Settlement and refund exclude each other.**  For every session and every sequence of calls in
which a refunded session is settled for its pre-consumed quota at most and a refund of the record
gives back at most once, not both a settlement and a refund move the funding source, and when no
actual quota is negative neither net debit is. -/
theorem settle_refund_exclusive (w w' : World) (info : RelayInfo) (s : BillingSession)
    (hready : Ready info.requestId w.db) (hopens : Opens w info w' s) (calls : List Call)
    (hcalls : Respects Audit.call Separate (Audit.start w' s) calls) :
    let a := run Audit.call (Audit.start w' s) calls
    ¬ (a.settlementApplied = true ∧ a.preConsumedGivenBack = true) ∧
      ((∀ c ∈ calls, NonnegQuota c) →
        0 ≤ netDebit ⟨w', s, none⟩ a.state ∧ 0 ≤ netTokenDebit ⟨w', s, none⟩ a.state) := by
  intro a
  obtain ⟨base, hopen, hstart⟩ := phase_start hready hopens (∀ c ∈ calls, NonnegQuota c)
  have hphase : Phase base (∀ c ∈ calls, NonnegQuota c) a :=
    run_preserves_of_respects (fun a c => phase_step a c) (hcalls.and_forall fun c hc hn => hn c hc) hstart
  refine ⟨hphase.exclusive, fun hn => ?_⟩
  obtain ⟨hacc, hused, hremain⟩ := hphase.inDebit hn
  have hused₀ := hopen.used_eq
  have hremain₀ := hopen.remain_eq
  simp only [netDebit, netTokenDebit, hacc, hopen.account_eq]
  omega

/-- Every update of a refund job succeeds. -/
def jobOk : RefundJobFaults :=
  ⟨true, ⟨true, true⟩, ⟨true, true⟩, ⟨true, true⟩, true, true⟩

/-- A settlement on a session that is not refunded, and a refund that comes too late. -/
theorem settle_refund_exclusive_sample : ∃ w s,
    Opens sampleWorld (sampleInfo "wallet_only") w s ∧
      0 ≤ netDebit ⟨w, s, none⟩ (run Audit.call (Audit.start w s)
        [.settle 30 ⟨true, true⟩, .refund, .runRefund jobOk]).state := by
  refine ⟨_, _, .inl ⟨sampleContext, some 1000, noFaults, 100, by decide, rfl⟩, ?_⟩
  exact ((settle_refund_exclusive sampleWorld _ (sampleInfo "wallet_only") _ sampleWorld_ready
    (.inl ⟨sampleContext, some 1000, noFaults, 100, by decide, rfl⟩)
    [.settle 30 ⟨true, true⟩, .refund, .runRefund jobOk] (by decide)).2 (by decide)).1

/-- **Both take effect**: of 100 pre-consumed the refund gives back 100, and the settlement for 30
that follows gives back another 70, to the wallet and to the token. -/
theorem settled_after_refund : ∃ w s,
    Opens sampleWorld (sampleInfo "wallet_only") w s ∧
      (let a := run Audit.call (Audit.start w s) [.refund, .runRefund jobOk, .settle 30 ⟨true, true⟩]
      a.settlementApplied = true ∧ a.preConsumedGivenBack = true ∧
        netDebit ⟨w, s, none⟩ a.state = -70 ∧ netTokenDebit ⟨w, s, none⟩ a.state = -70) := by
  refine ⟨_, _, .inl ⟨sampleContext, some 1000, noFaults, 100, by decide, rfl⟩, ?_⟩
  decide

end OneApi.Billing.Exclusive
