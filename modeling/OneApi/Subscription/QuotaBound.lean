import OneApi.Lib.Run
import OneApi.Subscription.PreConsume

/-!
# The quota used stays within the quota bought

Six writers change `amount_used`: the pre-consume, the settlement delta, the refund, the lazy
reset inside a pre-consume, the due reset of the background job and the two resets of an
administrator.  Each has a guard of its own (the remaining quota, the clamp at zero, the check
against the total, plain zero).  `Bounded` is what they all keep, whatever the order they come in
and whichever of them fail.

A refund commits its quota transaction before it marks its record, so other transactions can come
in between: `mark` is the second half taken on its own.
-/

namespace OneApi.Subscription.QuotaBound

open OneApi.Lib OneApi.Lib.Run OneApi.Subscription.Model OneApi.Subscription.PreConsume

/-- The quota used is not negative, and not above a positive total. -/
def Bounded (sub : UserSubscription) : Prop :=
  0 ≤ sub.amountUsed ∧ (0 < sub.amountTotal → sub.amountUsed ≤ sub.amountTotal)

instance (sub : UserSubscription) : Decidable (Bounded sub) :=
  inferInstanceAs (Decidable (_ ∧ _))

/-- Every subscription of the table is within its bounds. -/
def AllBounded (db : DB) : Prop := ∀ sub ∈ db.subs.rows, Bounded sub

instance (db : DB) : Decidable (AllBounded db) :=
  inferInstanceAs (Decidable (∀ sub ∈ db.subs.rows, Bounded sub))

/-- The transactions that write subscription rows, each with what its environment decides. -/
inductive Transaction
  | preConsume (env : Env) (ok : Bool) (requestId : String) (userId : ℤ)
      (modelName usingGroup : String) (amount : ℤ)
  | delta (ok : Bool) (userSubscriptionId delta : ℤ)
  | refund (faults : RefundFaults) (requestId : String)
  | mark (requestId : String)
  | resetDue (env : Env) (ok : Bool) (plan : SubscriptionPlan) (id : ℤ)
  | adminResetUser (env : Env) (ok isPackage : Bool) (userId planId : ℤ) (advance : Bool)
  | adminResetPlan (env : Env) (ok isPackage : Bool) (planId : ℤ) (advance : Bool)

/-- The tables after a transaction; an error or a transaction that never ends leaves them. -/
def apply (db : DB) : Transaction → DB
  | .preConsume env ok requestId userId modelName usingGroup amount =>
    match preConsumeUserSubscription env ok db requestId userId modelName usingGroup amount with
    | some (.ok (db', _)) => db'
    | _ => db
  | .delta ok id d => (postConsumeUserSubscriptionDelta ok db id d).toOption.getD db
  | .refund faults requestId => (refundSubscriptionPreConsume faults db requestId).1
  | .mark requestId =>
    match db.records.find requestId with
    | none => db
    | some record => (markRefunded true db record).1
  | .resetDue env ok plan id =>
    match resetDueRow env ok plan db.subs id with
    | some (.ok (subs, _)) => { db with subs }
    | _ => db
  | .adminResetUser env ok isPackage userId planId advance =>
    (adminResetUserSubscriptionsByPlan env ok db isPackage userId planId advance).toOption.getD db
  | .adminResetPlan env ok isPackage planId advance =>
    (adminResetPlanSubscriptions env ok db isPackage planId advance).toOption.getD db

/-! ## One transaction -/

/-- A property of a row that each of the four ways to write a row keeps: the lazy reset, the charge
of an amount that fits, the settlement to a quota within the bounds, and the forced reset. -/
structure RowInvariant (Q : UserSubscription → Prop) : Prop where
  reset : ∀ {fuel : ℕ} {loc : Go.Location} {sub sub' : UserSubscription} {plan : SubscriptionPlan}
    {now : ℤ}, Q sub → maybeResetUserSubscriptionWithPlanTx fuel loc sub plan now = some sub' → Q sub'
  charge : ∀ {sub : UserSubscription} {amount : ℤ}, Q sub → 0 < amount →
    subscriptionFits amount sub = true → Q { sub with amountUsed := sub.amountUsed + amount }
  settle : ∀ {sub : UserSubscription} {used : ℤ}, Q sub → 0 ≤ used →
    (0 < sub.amountTotal → used ≤ sub.amountTotal) → Q { sub with amountUsed := used }
  force : ∀ {loc : Go.Location} {sub : UserSubscription} {plan : SubscriptionPlan} {now : ℤ}
    {adv : Bool}, Q sub → Q (resetUserSubscriptionTx loc sub plan now adv)

theorem bounded_invariant : RowInvariant Bounded where
  reset := by
    intro fuel loc sub sub' plan now hb h
    have htotal := maybeReset_total h
    obtain ⟨_, _, _, hused | hused⟩ := maybeReset_cases h
    · exact ⟨hused ▸ hb.1, fun hpos => by rw [hused, htotal]; exact hb.2 (htotal ▸ hpos)⟩
    · exact ⟨by omega, fun hpos => by omega⟩
  charge := by
    intro sub amount hb hpos hfit
    simp only [subscriptionFits, decide_eq_true_eq] at hfit
    obtain ⟨h₀, _⟩ := hb
    refine ⟨?_, ?_⟩ <;> simp only
    · omega
    · intro htotal; omega
  settle := fun _ h₀ h₁ => ⟨h₀, h₁⟩
  force := fun _ => ⟨by simp, fun hpos => by simpa using le_of_lt hpos⟩

/-- No transaction changes the total of a row. -/
theorem total_invariant (P : ℤ → Prop) : RowInvariant fun sub => P sub.amountTotal where
  reset := fun hP h => by rw [maybeReset_total h]; exact hP
  charge := fun hP _ _ => hP
  settle := fun hP _ _ => hP
  force := fun hP => by rw [resetUserSubscriptionTx_total]; exact hP

/-- What a transaction keeps: every invariant of the rows, and the pool allocations. -/
structure Keeps (db db' : DB) : Prop where
  rows : ∀ {Q : UserSubscription → Prop}, RowInvariant Q → (∀ sub ∈ db.subs.rows, Q sub) → ∀ sub ∈ db'.subs.rows, Q sub
  allocations : db'.allocations = db.allocations

section Transactions

variable {env : Env} {ok : Bool} {db db' : DB}

theorem Keeps.refl (db : DB) : Keeps db db := ⟨fun _ hb => hb, rfl⟩

/-- A transaction that returns an error leaves the tables. -/
theorem keeps_getD {r : Except SubscriptionError DB} (h : ∀ db', r = .ok db' → Keeps db db') :
    Keeps db (r.toOption.getD db) := by
  cases r with
  | error e => exact .refl db
  | ok db' => exact h db' rfl

theorem keeps_preConsume {requestId : String}
    {userId amount : ℤ} {modelName usingGroup : String} {res : SubscriptionPreConsumeResult}
    (h : preConsumeUserSubscription env ok db requestId userId modelName usingGroup amount =
      some (.ok (db', res))) : Keeps db db' := by
  obtain ⟨hpos, ⟨_, _, _, rfl⟩ | ⟨_, _, t, sub, records, hsel, _, rfl, _⟩⟩ :=
    preConsumeUserSubscription_ok h
  · exact .refl db'
  · refine ⟨fun {Q} hQ hb => ?_, rfl⟩
    obtain ⟨fits, cands, hc, hfits, hscan⟩ := selectSubscription_ok hsel
    have hcb : ∀ c ∈ cands, Q c := fun c hmem => hb c (mem_activeSubscriptions.mp (hc c hmem)).1
    obtain ⟨hrows, hpick⟩ := scan_preserves (fun c plan s hP hs => hQ.reset hP hs) hb hcb hscan
    obtain ⟨hsub, hfit⟩ := hpick sub rfl
    exact Table.forall_save hrows (hQ.charge hsub hpos (hfits sub hfit))

theorem keeps_delta {id d : ℤ} (h : postConsumeUserSubscriptionDelta ok db id d = .ok db') : Keeps db db' := by
  obtain ⟨_, rfl⟩ | ⟨sub, hfind, htotal, rfl⟩ := postConsumeUserSubscriptionDelta_ok h
  · exact .refl db'
  · exact ⟨fun hQ hb => Table.forall_save hb (hQ.settle (hb sub (Table.find_mem hfind)) (le_max_left _ _) htotal), rfl⟩

theorem markRefunded_subs (record : PreConsumeRecord) : (markRefunded ok db record).1.subs = db.subs := by
  cases ok <;> rfl

theorem Keeps.markRefunded (h : Keeps db db') (ok : Bool) (record : PreConsumeRecord) :
    Keeps db (markRefunded ok db' record).1 := by
  cases ok with
  | false | true => exact ⟨h.rows, h.allocations⟩

theorem keeps_refund (faults : RefundFaults) (requestId : String) :
    Keeps db (refundSubscriptionPreConsume faults db requestId).1 := by
  unfold refundSubscriptionPreConsume
  split
  · exact .refl db
  split
  · exact .refl db
  split
  · exact .refl db
  split
  · exact (Keeps.refl db).markRefunded _ _
  · split
    · exact .refl db
    · rename_i db' hdelta
      exact (keeps_delta hdelta).markRefunded _ _

variable {plan : SubscriptionPlan}

theorem keeps_resetDueRow {id : ℤ} {n : ℕ} {subs : Table UserSubscription UserSubscription.id}
    (h : resetDueRow env ok plan db.subs id = some (.ok (subs, n))) : Keeps db { db with subs } := by
  refine ⟨fun {Q} hQ hb => ?_, rfl⟩
  show ∀ sub ∈ subs.rows, Q sub
  unfold resetDueRow at h
  split at h
  · cases h; exact hb
  rename_i locked hfind
  split at h
  · split at h
    · cases h
    · rename_i sub hsub
      split at h
      · cases h
        exact Table.forall_save hb (hQ.reset (hb locked (Table.find_mem hfind)) hsub)
      · cases h
  · cases h; exact hb

theorem keeps_adminResetTx {hit : UserSubscription → Bool} {advance : Bool}
    (h : adminResetTx env ok db plan hit advance = .ok db') : Keeps db db' := by
  constructor
  · intro Q hQ hb sub hsub
    obtain hmem | ⟨x, hx, rfl⟩ := mem_adminResetTx h hsub
    · exact hb sub hmem
    · exact hQ.force (hb x hx)
  · cases ok with
    | false => cases h
    | true =>
      cases h
      rfl

/-- **Step lemma.**  Every transaction, successful or not, keeps the invariants of the rows and the
allocations. -/
theorem keeps_apply (tx : Transaction) : Keeps db (apply db tx) := by
  cases tx with
  | preConsume env ok requestId userId modelName usingGroup amount =>
    simp only [apply]
    split
    · rename_i h; exact keeps_preConsume h
    · exact .refl db
  | delta ok id d => exact keeps_getD fun db' => keeps_delta
  | refund faults requestId => exact keeps_refund faults requestId
  | mark requestId =>
    simp only [apply]
    split
    · exact .refl db
    · exact (Keeps.refl db).markRefunded _ _
  | resetDue env ok plan id =>
    simp only [apply]
    split
    · rename_i h; exact keeps_resetDueRow h
    · exact .refl db
  | adminResetUser env ok isPackage userId planId advance =>
    refine keeps_getD fun db' h => ?_
    obtain ⟨plan, hit, htx⟩ := adminResetUserSubscriptionsByPlan_ok h
    exact keeps_adminResetTx htx
  | adminResetPlan env ok isPackage planId advance =>
    refine keeps_getD fun db' h => ?_
    obtain ⟨plan, hit, htx⟩ := adminResetPlanSubscriptions_ok h
    exact keeps_adminResetTx htx

end Transactions

/-! ## Every interleaving -/

/-- **The subscription quota bound.**  From any set of subscriptions within their bounds, every
sequence of transactions leaves every subscription within its bounds: the quota used is never
negative and never above a positive total. -/
theorem subscription_quota_bound (db : DB) (txs : List Transaction) (hb : AllBounded db) :
    ∀ sub ∈ (run apply db txs).subs.rows,
      0 ≤ sub.amountUsed ∧ (0 < sub.amountTotal → sub.amountUsed ≤ sub.amountTotal) :=
  run_preserves (fun _ tx => (keeps_apply tx).rows bounded_invariant) txs hb

/-- One subscription of 100 with 30 used. -/
def sampleDB : DB where
  subs := .single { id := 7, userId := 1, planId := 1, amountTotal := 100, amountUsed := 30,
                    endTime := 500 }
  records := .empty
  allocations := []

/-- A pre-consume of 60 that fits, a delta that does not, a reset, and a refund that lands after
the reset and is clamped. -/
def sampleTransactions : List Transaction :=
  let env : Env := ⟨100, Go.Location.fixed 0, fun _ => some { id := 1 }, 4⟩
  [.preConsume env true "req" 1 "gpt" "default" 60, .delta true 7 20,
    .adminResetPlan env true false 1 false, .refund ⟨true, true⟩ "req"]

theorem subscription_quota_bound_sample :
    AllBounded sampleDB ∧ (run apply sampleDB sampleTransactions).subs.rows ≠ [] ∧
      ∀ sub ∈ (run apply sampleDB sampleTransactions).subs.rows,
        0 ≤ sub.amountUsed ∧ (0 < sub.amountTotal → sub.amountUsed ≤ sub.amountTotal) :=
  ⟨by decide, by decide, subscription_quota_bound sampleDB sampleTransactions (by decide)⟩

end OneApi.Subscription.QuotaBound
