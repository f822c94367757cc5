import OneApi.Lib.Procs
import OneApi.Subscription.Order
import Mathlib.Algebra.Order.BigOperators.Group.Finset
import Mathlib.Data.Rat.Floor

/-!
# The purchase limit of a plan

A plan may limit how many subscriptions of it a user can have.  `CreateUserSubscriptionFromPlanTx`
counts the user's subscriptions and inserts one more; two transactions call it.
`CompleteSubscriptionOrder` holds the row of its order by then, `PurchaseSubscriptionWithBalance` the
row of the user.  Any number of both run here at once, statement by statement: each sees what is
committed, waits for a row another one holds, and writes at its commit.

A transaction that has counted may still insert.  So the committed subscriptions and those still to
come stay within the limit as long as nobody counts while another transaction of the same user and
plan has counted and not yet ended (`purchases_within_limit`).  The row of the user sees to that among
balance purchases (`balance_purchases_within_limit`); the row of an order does not.
-/

namespace OneApi.Subscription.PurchaseLimit

open OneApi.Lib OneApi.Lib.Run OneApi.Lib.Procs OneApi.Lib.Go
open OneApi.Subscription.Model OneApi.Subscription.Lifecycle OneApi.Subscription.Order

/-! ## The two halves of a purchase -/

/-- The subscriptions of a plan a user has. -/
def owned (st : Store) (userId planId : ℤ) : ℕ :=
  st.subs.rows.countP fun s => s.userId = userId ∧ s.planId = planId

/-- What the count of `CreateUserSubscriptionFromPlanTx` refuses. -/
def limitReached (st : Store) (userId : ℤ) (plan : SubscriptionPlan) : Prop :=
  0 < plan.maxPurchasePerUser ∧ plan.maxPurchasePerUser ≤ owned st userId plan.id

instance (st : Store) (userId : ℤ) (plan : SubscriptionPlan) :
    Decidable (limitReached st userId plan) :=
  inferInstanceAs (Decidable (_ ∧ _))

/-- The plan as it is read once the count is made: nothing else looks at the limit. -/
def counted (plan : SubscriptionPlan) : SubscriptionPlan := { plan with maxPurchasePerUser := 0 }

theorem calcNextResetTime_counted (loc : Location) (base : ℤ) (plan : SubscriptionPlan) (endUnix : ℤ) :
    calcNextResetTime loc base (counted plan) endUnix = calcNextResetTime loc base plan endUnix := by
  have hperiod : (counted plan).quotaResetPeriod = plan.quotaResetPeriod := rfl
  rw [calcNextResetTime, calcNextResetTime, hperiod]
  cases normalizeResetPeriod plan.quotaResetPeriod <;> rfl

/-- A purchase is its count and then its writes. -/
theorem createUserSubscriptionFromPlanTx_counted (loc : Location) (now : ℤ) (st : Store)
    (id userId : ℤ) (plan : SubscriptionPlan) (source : String) :
    createUserSubscriptionFromPlanTx loc now st id userId plan source =
      if plan.id = 0 then .error .invalidPlan
      else if userId ≤ 0 then .error .invalidUserId
      else if limitReached st userId plan then .error .purchaseLimit
      else createUserSubscriptionFromPlanTx loc now st id userId (counted plan) source := by
  by_cases hplan : plan.id = 0
  · rw [createUserSubscriptionFromPlanTx, if_pos hplan, if_pos hplan]
  by_cases huser : userId ≤ 0
  · rw [createUserSubscriptionFromPlanTx, if_neg hplan, if_pos huser, if_neg hplan, if_pos huser]
  rw [if_neg hplan, if_neg huser, createUserSubscriptionFromPlanTx, if_neg hplan, if_neg huser]
  by_cases hlimit : limitReached st userId plan
  · rw [if_pos hlimit]
    exact if_pos hlimit
  · -- the writes read every field of the plan but the limit
    have hcounted : ¬ (counted plan).id = 0 := hplan
    have hnone : ¬ (0 < (counted plan).maxPurchasePerUser ∧ (counted plan).maxPurchasePerUser ≤
        (st.subs.rows.countP fun s => s.userId = userId ∧ s.planId = (counted plan).id : ℤ)) :=
      fun h => lt_irrefl 0 h.1
    have hend : calcPlanEndTime loc now (counted plan) = calcPlanEndTime loc now plan := rfl
    rw [if_neg hlimit, createUserSubscriptionFromPlanTx, if_neg hcounted, if_neg huser, if_neg hnone, hend]
    simp only [calcNextResetTime_counted]
    simp only [counted]
    exact if_neg hlimit

/-- `CreateUserSubscriptionFromPlanTx` inserts one subscription of the plan for the user. -/
theorem owned_create {loc : Location} {now : ℤ} {st st' : Store} {id userId : ℤ}
    {plan : SubscriptionPlan} {source : String} {sub : UserSubscription}
    (h : createUserSubscriptionFromPlanTx loc now st id userId plan source = .ok (st', sub)) (u p : ℤ) :
    owned st' u p = owned st u p + if userId = u ∧ plan.id = p then 1 else 0 := by
  obtain ⟨-, hinsert, huser, hplan, -⟩ := createUserSubscriptionFromPlanTx_ok h
  rw [owned, owned, Table.insert_rows hinsert, List.countP_append, huser.symm, ← hplan]
  simp [List.countP_cons]

/-! ## Purchases, statement by statement -/

/-- What a purchase reads and no purchase writes: the local zone, the plans with the columns only a
balance purchase looks at, which plans are agent plan packages, and `QuotaPerUnit`. -/
structure Shop where
  loc : Location
  plans : ℤ → Option SubscriptionPlan
  plan_id : ∀ id plan, plans id = some plan → plan.id = id
  packagePlans : ℤ → Bool
  priceAmount : ℤ → ℚ
  allowBalancePay : ℤ → Option Bool
  quotaPerUnit : ℚ

/-- What one statement meets: whether it succeeds, the clocks, the id an inserted subscription gets
and the trade number a balance purchase makes up. -/
structure Action where
  ok : Bool := true
  now : ℤ
  timestamp : ℤ
  subId : ℤ
  tradeNo : String
  deriving Repr, DecidableEq

def Shop.env (shop : Shop) (a : Action) : OrderEnv :=
  ⟨a.now, a.timestamp, shop.loc, shop.plans, shop.packagePlans⟩

inductive PurchaseError
  | invalidIds
  | order (e : OrderError)
  | planDisabled
  | negativePrice
  | balancePayNotAllowed
  | quotaUnit
  | userNotFound
  | insufficientBalance
  | database
  deriving Repr, DecidableEq

def PurchaseError.message : PurchaseError → String
  | .invalidIds => "invalid userId or planId"
  | .order e => e.message
  | .planDisabled => "套餐未启用"
  | .negativePrice => "套餐价格不能为负数"
  | .balancePayNotAllowed => "该套餐不允许使用余额兑换"
  | .quotaUnit => "额度单位配置错误"
  | .userNotFound => "record not found"
  | .insufficientBalance => "余额不足"
  | .database => "database error"

def calcSubscriptionBalanceQuota (quotaPerUnit priceAmount : ℚ) : Except PurchaseError ℤ :=
  if priceAmount ≤ 0 then .ok 0
  else if quotaPerUnit ≤ 0 then .error .quotaUnit
  else .ok ⌈priceAmount * quotaPerUnit⌉

/-- Why a transaction creates a subscription: to complete an order, with the texts of the callback, or
because the user pays from the wallet. -/
inductive Purpose
  | order (order : SubscriptionOrder) (providerPayload actualPaymentMethod : String)
  | balance (requiredQuota : ℤ)

/-- What a transaction knows, and the rows it holds. -/
structure Tx where
  userId : ℤ
  plan : SubscriptionPlan
  purpose : Purpose
  orderRow : Option String
  userRow : Option ℤ

/-- `CompleteSubscriptionOrder` and `PurchaseSubscriptionWithBalance`, with their arguments. -/
inductive Call
  | complete (tradeNo providerPayload expectedPaymentProvider actualPaymentMethod : String)
  | balance (userId planId : ℤ)
  deriving Repr, DecidableEq

/-- What a transaction is about to do. -/
inductive Phase
  | start
  | count (tx : Tx)
  | readGroup (tx : Tx)
  | write (tx : Tx)
  | done (result : Except PurchaseError Unit)

def Phase.tx : Phase → Option Tx
  | .count tx => some tx
  | .readGroup tx => some tx
  | .write tx => some tx
  | _ => none

structure Proc where
  call : Call
  phase : Phase := .start

/-- The committed tables and wallets, and the rows that are held. -/
structure Shared where
  db : OrderDB
  quota : ℤ → ℤ
  orderLocks : String → Bool
  userLocks : ℤ → Bool

section Statements

variable {κ : Type*} [DecidableEq κ]

def lock (locks : κ → Bool) (row : κ) : κ → Bool := fun k => if k = row then true else locks k

def unlock (locks : κ → Bool) (row : Option κ) : κ → Bool :=
  fun k => if row = some k then false else locks k

/-- The end of a transaction gives its rows back. -/
def finish (s : Shared) (p : Proc) (result : Except PurchaseError Unit) : Shared × Proc :=
  ({ s with
      orderLocks := unlock s.orderLocks (p.phase.tx.bind Tx.orderRow)
      userLocks := unlock s.userLocks (p.phase.tx.bind Tx.userRow) },
    { p with phase := .done result })

/-- `CompleteSubscriptionOrder` up to its call of `CreateUserSubscriptionFromPlanTx`, under the lock of
the order; `none` is an order that is already completed. -/
def openOrder (env : OrderEnv) (ok : Bool) (db : OrderDB)
    (tradeNo providerPayload expectedPaymentProvider actualPaymentMethod : String) : Except OrderError (Option Tx) :=
  if ¬ ok then .error .orderNotFound
  else
    match db.orders.find tradeNo with
    | none => .error .orderNotFound
    | some order =>
      if expectedPaymentProvider ≠ "" ∧ order.paymentProvider ≠ expectedPaymentProvider then
        .error .paymentMethodMismatch
      else if order.status = .success then .ok none
      else if order.status ≠ .pending then .error .statusInvalid
      else
        match orderPlan env order.planId with
        | .error e => .error e
        | .ok plan => .ok (some ⟨order.userId, plan,
            .order order providerPayload actualPaymentMethod, some tradeNo, none⟩)

/-- What `PurchaseSubscriptionWithBalance` checks before it reads the user: the plan and its price in
quota. -/
def balanceTerms (shop : Shop) (env : OrderEnv) (userId planId : ℤ) : Except PurchaseError (SubscriptionPlan × ℤ) :=
  if userId ≤ 0 ∨ planId ≤ 0 then .error .invalidIds
  else
    match orderPlan env planId with
    | .error e => .error (.order e)
    | .ok plan =>
      if ¬ plan.enabled then .error .planDisabled
      else if shop.priceAmount plan.id < 0 then .error .negativePrice
      else if shop.allowBalancePay plan.id = some false then .error .balancePayNotAllowed
      else
        match calcSubscriptionBalanceQuota shop.quotaPerUnit (shop.priceAmount plan.id) with
        | .error e => .error e
        | .ok requiredQuota => .ok (plan, requiredQuota)

/-- The read of the user in `PurchaseSubscriptionWithBalance`, under its lock. -/
def openBalance (ok : Bool) (s : Shared) (userId : ℤ) (plan : SubscriptionPlan)
    (requiredQuota : ℤ) : Except PurchaseError Tx :=
  if ¬ ok ∨ s.db.store.users userId = none then .error .userNotFound
  else if 0 < requiredQuota ∧ s.quota userId < requiredQuota then .error .insufficientBalance
  else .ok ⟨userId, plan, .balance requiredQuota, none, some userId⟩

/-- What a transaction commits after its count. -/
def commit (shop : Shop) (a : Action) (s : Shared) (tx : Tx) : Except PurchaseError (OrderDB × (ℤ → ℤ)) :=
  match tx.purpose with
  | .order order providerPayload actualPaymentMethod =>
    match fulfil (shop.env a) a.ok a.subId s.db order (counted tx.plan) providerPayload actualPaymentMethod with
    | .error e => .error (.order e)
    | .ok db => .ok (db, s.quota)
  | .balance requiredQuota =>
    match createUserSubscriptionFromPlanTx shop.loc a.now s.db.store a.subId tx.userId (counted tx.plan) "balance" with
    | .error e => .error (.order (.create e))
    | .ok (store, _) =>
      match s.db.orders.insert ⟨tx.userId, tx.plan.id, shop.priceAmount tx.plan.id, a.tradeNo,
          "balance", "balance", .success, a.timestamp, a.timestamp,
          s!"charged_quota={requiredQuota}"⟩ with
      | none => .error .database
      | some orders =>
        if a.ok then
          .ok (⟨store, orders, s.db.topups⟩,
            if 0 < requiredQuota then
              Function.update s.quota tx.userId (s.quota tx.userId - requiredQuota)
            else s.quota)
        else .error .database

/-- One statement.  A transaction that needs a row another one holds stays where it is. -/
def act (shop : Shop) (s : Shared) (p : Proc) (a : Action) : Shared × Proc :=
  match p.phase with
  | .start =>
    match p.call with
    | .complete tradeNo providerPayload expectedPaymentProvider actualPaymentMethod =>
      if tradeNo = "" then finish s p (.error (.order .tradeNoEmpty))
      else if s.orderLocks tradeNo then (s, p)
      else
        match openOrder (shop.env a) a.ok s.db tradeNo providerPayload expectedPaymentProvider actualPaymentMethod with
        | .error e => finish s p (.error (.order e))
        | .ok none => finish s p (.ok ())
        | .ok (some tx) =>
          ({ s with orderLocks := lock s.orderLocks tradeNo }, { p with phase := .count tx })
    | .balance userId planId =>
      match balanceTerms shop (shop.env a) userId planId with
      | .error e => finish s p (.error e)
      | .ok (plan, requiredQuota) =>
        if s.userLocks userId then (s, p)
        else
          match openBalance a.ok s userId plan requiredQuota with
          | .error e => finish s p (.error e)
          | .ok tx =>
            ({ s with userLocks := lock s.userLocks userId }, { p with phase := .count tx })
  | .count tx =>
    if tx.plan.id = 0 then finish s p (.error (.order (.create .invalidPlan)))
    else if tx.userId ≤ 0 then finish s p (.error (.order (.create .invalidUserId)))
    else if ¬ a.ok then finish s p (.error .database)
    else if limitReached s.db.store tx.userId tx.plan then
      finish s p (.error (.order (.create .purchaseLimit)))
    else (s, { p with phase := .readGroup tx })
  | .readGroup tx =>
    -- the group is read under the lock of the user, which a balance purchase already has
    if tx.userRow = none ∧ trimSpace tx.plan.upgradeGroup ≠ "" ∧
        s.db.store.users tx.userId ≠ none then
      if s.userLocks tx.userId then (s, p)
      else if ¬ a.ok then finish s p (.error .database)
      else
        ({ s with userLocks := lock s.userLocks tx.userId },
          { p with phase := .write { tx with userRow := some tx.userId } })
    else (s, { p with phase := .write tx })
  | .write tx =>
    match commit shop a s tx with
    | .error e => finish s p (.error e)
    | .ok (db, quota) => finish { s with db, quota } p (.ok ())
  | .done _ => (s, p)

end Statements

/-! ## One statement -/

/-- A transaction that has counted and may still insert. -/
def Phase.inserting : Phase → Option Tx
  | .readGroup tx => some tx
  | .write tx => some tx
  | _ => none

theorem Phase.tx_of_inserting {phase : Phase} {tx : Tx} (h : phase.inserting = some tx) : phase.tx = some tx := by
  cases phase with
  | readGroup tx' | write tx' => exact h
  | start | count tx' | done result => cases h

/-- The subscription of the plan that a transaction may still insert for the user. -/
def pending (userId planId : ℤ) (p : Proc) : ℤ :=
  match p.phase.inserting with
  | some tx => if tx.userId = userId ∧ tx.plan.id = planId then 1 else 0
  | none => 0

theorem pending_inserting {p : Proc} {tx : Tx} (h : p.phase.inserting = some tx) (userId planId : ℤ) :
    pending userId planId p = if tx.userId = userId ∧ tx.plan.id = planId then 1 else 0 := by
  rw [pending, h]

theorem pending_none {p : Proc} (h : p.phase.inserting = none) (userId planId : ℤ) : pending userId planId p = 0 := by
  rw [pending, h]

/-- What a transaction knows is so: its plan is the one of the shop, and its order is for its user. -/
structure Tx.Sound (shop : Shop) (tx : Tx) : Prop where
  plan : shop.plans tx.plan.id = some tx.plan
  order : ∀ order payload method, tx.purpose = .order order payload method → order.userId = tx.userId

def Sound (shop : Shop) (p : Proc) : Prop := ∀ tx, p.phase.tx = some tx → tx.Sound shop

section Statement

variable {shop : Shop} {s : Shared} {p : Proc} {a : Action}

variable {plan : SubscriptionPlan}

theorem orderPlan_sound {planId : ℤ}
    (h : orderPlan (shop.env a) planId = .ok plan) : shop.plans plan.id = some plan := by
  rw [orderPlan, getSubscriptionPlanByIdTx] at h
  split at h
  · cases h
  rename_i found hfound
  split at hfound
  · cases hfound
  split at hfound
  · cases hfound
  rename_i hplans
  cases hfound
  have hid : found.id = planId := shop.plan_id planId found hplans
  split at h
  · cases h
  · cases h
  · cases h
    rw [hid]
    exact hplans

variable {tx : Tx}

/-- What is committed is one subscription of the plan for the user. -/
theorem commit_owned {db : OrderDB} {quota : ℤ → ℤ} (hsound : tx.Sound shop)
    (h : commit shop a s tx = .ok (db, quota)) (userId planId : ℤ) :
    owned db.store userId planId =
      owned s.db.store userId planId +
        if tx.userId = userId ∧ tx.plan.id = planId then 1 else 0 := by
  rw [commit] at h
  split at h
  · rename_i order payload method hpurpose
    split at h
    · cases h
    rename_i hfulfil
    cases h
    obtain ⟨⟨sub, hcreate⟩, -, -⟩ := fulfil_writes hfulfil
    rw [owned_create hcreate, hsound.order order payload method hpurpose]
    rfl
  · split at h
    · cases h
    rename_i hcreate
    split at h
    · cases h
    split at h
    · cases h
      exact owned_create hcreate userId planId
    · cases h

theorem openOrder_ok {ok : Bool} {db : OrderDB} {tradeNo payload provider method : String}
    (h : openOrder (shop.env a) ok db tradeNo payload provider method = .ok (some tx)) :
    tx.Sound shop ∧ tx.userRow = none := by
  rw [openOrder] at h
  split at h
  · cases h
  split at h
  · cases h
  rename_i order _
  split at h
  · cases h
  split at h
  · cases h
  split at h
  · cases h
  split at h
  · cases h
  rename_i plan hplan
  cases h
  refine ⟨⟨orderPlan_sound hplan, ?_⟩, rfl⟩
  intro order' _ _ hpurpose
  cases hpurpose
  rfl

theorem balanceTerms_sound {userId planId requiredQuota : ℤ}
    (h : balanceTerms shop (shop.env a) userId planId = .ok (plan, requiredQuota)) :
    shop.plans plan.id = some plan := by
  rw [balanceTerms] at h
  split at h
  · cases h
  split at h
  · cases h
  rename_i found hplan
  split at h
  · cases h
  split at h
  · cases h
  split at h
  · cases h
  split at h
  · cases h
  cases h
  exact orderPlan_sound hplan

theorem openBalance_ok {ok : Bool} {userId requiredQuota : ℤ}
    (h : openBalance ok s userId plan requiredQuota = .ok tx) :
    tx = ⟨userId, plan, .balance requiredQuota, none, some userId⟩ := by
  rw [openBalance] at h
  split at h
  · cases h
  split at h
  · cases h
  · cases h
    rfl

/-- Everything one statement can do. -/
inductive Outcome (shop : Shop) (s : Shared) (p : Proc) (a : Action) : Shared × Proc → Prop
  | waits : Outcome shop s p a (s, p)
  | ends (result : Except PurchaseError Unit) : Outcome shop s p a (finish s p result)
  | opensOrder (tradeNo payload provider method : String) (tx : Tx) (hphase : p.phase = .start)
      (hcall : p.call = .complete tradeNo payload provider method) (hsound : tx.Sound shop)
      (hrow : tx.userRow = none) :
      Outcome shop s p a
        ({ s with orderLocks := lock s.orderLocks tradeNo }, { p with phase := .count tx })
  | opensBalance (tx : Tx) (hphase : p.phase = .start) (hsound : tx.Sound shop)
      (hrow : tx.userRow = some tx.userId) (hfree : s.userLocks tx.userId = false) :
      Outcome shop s p a
        ({ s with userLocks := lock s.userLocks tx.userId }, { p with phase := .count tx })
  | counts (tx : Tx) (hphase : p.phase = .count tx)
      (hlimit : ¬ limitReached s.db.store tx.userId tx.plan) :
      Outcome shop s p a (s, { p with phase := .readGroup tx })
  | locksUser (tx : Tx) (hphase : p.phase = .readGroup tx) (hrow : tx.userRow = none)
      (hfree : s.userLocks tx.userId = false) :
      Outcome shop s p a
        ({ s with userLocks := lock s.userLocks tx.userId },
          { p with phase := .write { tx with userRow := some tx.userId } })
  | goesOn (tx : Tx) (hphase : p.phase = .readGroup tx) :
      Outcome shop s p a (s, { p with phase := .write tx })
  | commits (tx : Tx) (db : OrderDB) (quota : ℤ → ℤ) (hphase : p.phase = .write tx)
      (hcommit : commit shop a s tx = .ok (db, quota)) :
      Outcome shop s p a (finish { s with db, quota } p (.ok ()))

theorem act_outcome (shop : Shop) (s : Shared) (p : Proc) (a : Action) : Outcome shop s p a (act shop s p a) := by
  rw [act]
  split
  · rename_i hphase
    split
    · rename_i tradeNo payload provider method hcall
      split
      · exact .ends _
      split
      · exact .waits
      split
      · exact .ends _
      · exact .ends _
      · rename_i tx hopen
        obtain ⟨hsound, hrow⟩ := openOrder_ok hopen
        exact .opensOrder tradeNo payload provider method tx hphase hcall hsound hrow
    · rename_i userId planId hcall
      split
      · exact .ends _
      rename_i plan requiredQuota hterms
      split
      · exact .waits
      rename_i hfree
      split
      · exact .ends _
      · rename_i tx hopen
        cases openBalance_ok hopen
        refine .opensBalance ⟨userId, plan, .balance requiredQuota, none, some userId⟩ hphase
          ⟨balanceTerms_sound hterms, ?_⟩ rfl (Bool.eq_false_iff.mpr hfree)
        intro order _ _ hpurpose
        cases hpurpose
  · rename_i tx hphase
    split
    · exact .ends _
    split
    · exact .ends _
    split
    · exact .ends _
    split
    · exact .ends _
    · rename_i hlimit
      exact .counts tx hphase hlimit
  · rename_i tx hphase
    split
    · rename_i hneeds
      split
      · exact .waits
      rename_i hfree
      split
      · exact .ends _
      · exact .locksUser tx hphase hneeds.1 (Bool.eq_false_iff.mpr hfree)
    · exact .goesOn tx hphase
  · rename_i tx hphase
    split
    · exact .ends _
    · rename_i db quota hcommit
      exact .commits tx db quota hphase hcommit
  · exact .waits

theorem act_sound (hsound : Sound shop p) : Sound shop (act shop s p a).2 := by
  have houtcome := act_outcome shop s p a
  generalize act shop s p a = r at houtcome
  intro tx htx
  cases houtcome with
  | waits => exact hsound tx htx
  | ends result | commits tx' db quota _ _ => cases htx
  | opensOrder _ _ _ _ tx' _ _ htx' _ | opensBalance tx' _ htx' _ _ =>
    cases htx
    exact htx'
  | counts tx' hphase _ | goesOn tx' hphase =>
    cases htx
    exact hsound tx (by rw [hphase]; rfl)
  | locksUser tx' hphase _ _ =>
    cases htx
    have htx' := hsound tx' (by rw [hphase]; rfl)
    exact ⟨htx'.plan, htx'.order⟩

theorem pending_nonneg (userId planId : ℤ) (p : Proc) : 0 ≤ pending userId planId p := by
  rw [pending]
  split
  · split
    · exact zero_le_one
    · exact le_rfl
  · exact le_rfl

/-- **What one statement does to the limit.**  The subscriptions of a user and plan that are committed
or still to come do not become more, unless the transaction has just counted fewer than the limit. -/
theorem act_owned (hsound : Sound shop p) (userId planId : ℤ) :
    (owned (act shop s p a).1.db.store userId planId : ℤ) +
          pending userId planId (act shop s p a).2 ≤
        owned s.db.store userId planId + pending userId planId p ∨
      ∃ tx, p.phase = .count tx ∧ tx.userId = userId ∧ tx.plan.id = planId ∧
        ¬ limitReached s.db.store userId tx.plan ∧
        act shop s p a = (s, { p with phase := .readGroup tx }) := by
  have houtcome := act_outcome shop s p a
  have hpending := pending_nonneg userId planId p
  generalize act shop s p a = r at houtcome
  cases houtcome with
  | waits => exact .inl le_rfl
  | ends result | opensOrder _ _ _ _ tx _ _ _ _ | opensBalance tx _ _ _ _ =>
    left
    show (owned s.db.store userId planId : ℤ) + 0 ≤ _
    omega
  | counts tx hphase hlimit =>
    by_cases hkey : tx.userId = userId ∧ tx.plan.id = planId
    · obtain ⟨rfl, rfl⟩ := hkey
      exact .inr ⟨tx, hphase, rfl, rfl, hlimit, rfl⟩
    · left
      have hafter : ({ p with phase := .readGroup tx } : Proc).phase.inserting = some tx := rfl
      have hnext : pending userId planId { p with phase := .readGroup tx } = 0 := by
        rw [pending_inserting hafter, if_neg hkey]
      show (owned s.db.store userId planId : ℤ) + pending userId planId { p with phase := .readGroup tx } ≤ _
      omega
  | locksUser tx hphase _ _ | goesOn tx hphase =>
    left
    have hbefore : p.phase.inserting = some tx := by
      rw [hphase]
      rfl
    rw [pending_inserting hbefore, pending_inserting rfl]
  | commits tx db quota hphase hcommit =>
    left
    have htx : tx.Sound shop := hsound tx (by rw [hphase]; rfl)
    have hone := commit_owned htx hcommit userId planId
    show (owned db.store userId planId : ℤ) + 0 ≤ _
    have hbefore : p.phase.inserting = some tx := by
      rw [hphase]
      rfl
    rw [pending_inserting hbefore, hone]
    push_cast
    omega

end Statement

/-! ## Every interleaving -/

/-- Every transaction before its first statement. -/
def opening {ι : Type*} (start : Shared) (calls : ι → Call) : System ι Shared Proc :=
  ⟨start, fun i => { call := calls i }⟩

/-- **A count is made alone**: no other transaction of the same user and plan has counted and may
still insert. -/
def countsAlone {ι : Type*} (s : System ι Shared Proc) (i : ι) : Prop :=
  match (s.proc i).phase with
  | .count tx => 0 < tx.plan.maxPurchasePerUser →
      ∀ j, j ≠ i → pending tx.userId tx.plan.id (s.proc j) = 0
  | _ => True

instance {ι : Type*} [Fintype ι] [DecidableEq ι] (s : System ι Shared Proc) (i : ι) :
    Decidable (countsAlone s i) := by
  unfold countsAlone
  split <;> infer_instance

section Interleaving

variable {ι : Type*} [Fintype ι] {shop : Shop}

/-- The subscriptions of the plan, committed or still to come, are within the limit. -/
structure Inv (shop : Shop) (userId : ℤ) (plan : SubscriptionPlan) (bound : ℤ) (s : System ι Shared Proc) : Prop where
  sound : ∀ i, Sound shop (s.proc i)
  within : (owned s.shared.db.store userId plan.id : ℤ) + total (pending userId plan.id) s ≤ bound

variable {userId : ℤ} {plan : SubscriptionPlan}

theorem Inv.owned_le {bound : ℤ} {s : System ι Shared Proc}
    (h : Inv shop userId plan bound s) : (owned s.shared.db.store userId plan.id : ℤ) ≤ bound := by
  have hwithin := h.within
  have htotal : 0 ≤ total (pending userId plan.id) s :=
    Finset.sum_nonneg fun i _ => pending_nonneg userId plan.id _
  omega

variable [DecidableEq ι]

/-- The step lemma. -/
theorem move_inv {bound : ℤ} (hplan : shop.plans plan.id = some plan)
    (hlimit : 0 < plan.maxPurchasePerUser) (hbound : plan.maxPurchasePerUser ≤ bound)
    (s : System ι Shared Proc) (a : ι × Action) (halone : countsAlone s a.1)
    (h : Inv shop userId plan bound s) : Inv shop userId plan bound (move (act shop) s a) := by
  refine ⟨move_proc (P := fun _ => Sound shop) (act_sound (h.sound a.1)) fun j _ => h.sound j, ?_⟩
  · have hwithin := h.within
    rw [total_move, move_shared]
    rcases act_owned (s := s.shared) (a := a.2) (h.sound a.1) userId plan.id with hkept | hpassed
    · omega
    obtain ⟨tx, hphase, huser, hid, hfewer, hact⟩ := hpassed
    -- the transaction has the plan of the shop, so it has counted against this limit
    have htx : tx.plan = plan := by
      have hsound := (h.sound a.1 tx (by rw [hphase]; rfl)).plan
      rw [hid, hplan] at hsound
      exact (Option.some.inj hsound).symm
    rw [htx] at hfewer
    have hroom : (owned s.shared.db.store userId plan.id : ℤ) < plan.maxPurchasePerUser := by
      by_contra hge
      exact hfewer ⟨hlimit, not_lt.mp hge⟩
    have hself : pending userId plan.id (s.proc a.1) = 0 :=
      pending_none (by rw [hphase]; rfl) userId plan.id
    have hnone : total (pending userId plan.id) s = 0 := by
      rw [countsAlone, hphase] at halone
      refine Finset.sum_eq_zero fun j _ => ?_
      by_cases hj : j = a.1
      · rw [hj]
        exact hself
      · rw [← huser, ← hid]
        exact halone (by rw [htx]; exact hlimit) j hj
    have hafter : ({ s.proc a.1 with phase := .readGroup tx } : Proc).phase.inserting = some tx := rfl
    have hone : pending userId plan.id { s.proc a.1 with phase := .readGroup tx } = 1 := by
      rw [pending_inserting hafter, if_pos ⟨huser, hid⟩]
    rw [hact, hnone, hself, hone]
    show (owned s.shared.db.store userId plan.id : ℤ) + _ ≤ _
    omega

/-- The run lemma. -/
theorem run_inv (hplan : shop.plans plan.id = some plan)
    (hlimit : 0 < plan.maxPurchasePerUser) {start : Shared} {calls : ι → Call} {acts : List (ι × Action)}
    (halone : Respects (move (act shop)) (fun s a => countsAlone s a.1) (opening start calls) acts) :
    Inv shop userId plan (max plan.maxPurchasePerUser (owned start.db.store userId plan.id))
      (run (move (act shop)) (opening start calls) acts) := by
  refine run_preserves_of_respects (move_inv hplan hlimit (le_max_left _ _)) halone ?_
  refine ⟨fun i tx htx => (nomatch htx), ?_⟩
  show (owned start.db.store userId plan.id : ℤ) + ∑ _i : ι, (0 : ℤ) ≤ _
  rw [Finset.sum_const_zero, add_zero]
  exact le_max_right _ _

/-- **The purchase limit.**  For every plan with a limit and every user, in every interleaving of any
number of order completions and balance purchases in which every count is made alone, the user has
no more subscriptions of the plan than the limit allows, or than they had at the start. -/
theorem purchases_within_limit (shop : Shop) (userId : ℤ) (plan : SubscriptionPlan)
    (hplan : shop.plans plan.id = some plan) (hlimit : 0 < plan.maxPurchasePerUser)
    (start : Shared) (calls : ι → Call) (acts : List (ι × Action))
    (halone : Respects (move (act shop)) (fun s a => countsAlone s a.1) (opening start calls) acts) :
    (owned (run (move (act shop)) (opening start calls) acts).shared.db.store userId plan.id : ℤ) ≤
      max plan.maxPurchasePerUser (owned start.db.store userId plan.id) :=
  (run_inv hplan hlimit halone).owned_le

/-- One plan, of which a user may have one subscription. -/
def oneEach : Shop where
  loc := Location.fixed 0
  plans := fun id => if id = 3 then some { id := 3, maxPurchasePerUser := 1 } else none
  plan_id := by
    intro id plan h
    split at h
    · rename_i hid
      cases h
      exact hid.symm
    · cases h
  packagePlans := fun _ => false
  priceAmount := fun _ => 10
  allowBalancePay := fun _ => none
  quotaPerUnit := 500000

/-- Two paid orders of user 1 for the plan. -/
def twoOrders : Shared where
  db :=
    { store := ⟨.empty, fun id => if id = 1 then some "default" else none⟩
      orders := (Table.insert (.single ⟨1, 3, 10, "T1", "alipay", "epay", .pending, 50, 0, ""⟩)
        ⟨1, 3, 10, "T2", "alipay", "epay", .pending, 50, 0, ""⟩).getD .empty
      topups := .empty }
  quota := fun _ => 0
  orderLocks := fun _ => false
  userLocks := fun _ => false

def callbackOf : Two → Call
  | .first => .complete "T1" "" "epay" "alipay"
  | .second => .complete "T2" "" "epay" "alipay"

def statement (i : Two) : Two × Action :=
  (i, { now := 100, timestamp := 100, subId := if i = .first then 7 else 8, tradeNo := "" })

/-- The second callback comes when the first is done. -/
def oneByOne : List (Two × Action) :=
  [.first, .first, .first, .first, .second, .second, .second, .second].map statement

/-- Both callbacks count before either inserts. -/
def sideBySide : List (Two × Action) :=
  [.first, .first, .second, .second, .first, .first, .second, .second].map statement

theorem purchases_within_limit_one_by_one :
    Respects (move (act oneEach)) (fun s a => countsAlone s a.1) (opening twoOrders callbackOf)
        oneByOne ∧
      (owned (run (move (act oneEach)) (opening twoOrders callbackOf) oneByOne).shared.db.store 1 3 :
        ℤ) ≤ max 1 (owned twoOrders.db.store 1 3) :=
  ⟨by decide +kernel, purchases_within_limit oneEach 1 { id := 3, maxPurchasePerUser := 1 } rfl
    (by decide) twoOrders callbackOf oneByOne (by decide +kernel)⟩

/-- Two callbacks side by side give the user two subscriptions of a plan that allows one. -/
theorem purchases_beyond_limit :
    (oneEach.plans 3).map (·.maxPurchasePerUser) = some 1 ∧ owned twoOrders.db.store 1 3 = 0 ∧
      owned (run (move (act oneEach)) (opening twoOrders callbackOf) sideBySide).shared.db.store 1 3 =
        2 := by
  decide +kernel

/-! ### Balance purchases alone -/

/-- The row of the user a transaction holds. -/
def Proc.userRow (p : Proc) : Option ℤ := p.phase.tx.bind Tx.userRow

/-- A balance purchase holds the row of its user from its first statement to its end. -/
def HoldsUser (p : Proc) : Prop :=
  (∃ userId planId, p.call = .balance userId planId) ∧ ∀ tx, p.phase.tx = some tx → tx.userRow = some tx.userId

variable {s : Shared} {p : Proc} {a : Action}

theorem act_holdsUser (h : HoldsUser p) : HoldsUser (act shop s p a).2 := by
  obtain ⟨⟨userId, planId, hbalance⟩, hrow⟩ := h
  have houtcome := act_outcome shop s p a
  generalize act shop s p a = r at houtcome
  cases houtcome with
  | waits => exact ⟨⟨userId, planId, hbalance⟩, hrow⟩
  | ends result | commits tx' db quota _ _ => exact ⟨⟨userId, planId, hbalance⟩, fun tx htx => nomatch htx⟩
  | opensOrder _ _ _ _ _ _ hcall _ _ =>
    rw [hbalance] at hcall
    cases hcall
  | opensBalance tx' _ _ hrow' _ =>
    refine ⟨⟨userId, planId, hbalance⟩, fun tx htx => ?_⟩
    cases htx
    exact hrow'
  | counts tx' hphase _ | goesOn tx' hphase =>
    refine ⟨⟨userId, planId, hbalance⟩, fun tx htx => hrow tx ?_⟩
    rw [hphase]
    exact htx
  | locksUser tx' hphase hrow' _ =>
    have hsome := hrow tx' (by rw [hphase]; rfl)
    rw [hrow'] at hsome
    cases hsome

/-- The row of a user that a statement leaves held is locked, and it was held or free before. -/
theorem act_takes {k : ℤ} (hlocked : p.userRow = some k → s.userLocks k = true)
    (h : (act shop s p a).2.userRow = some k) :
    (act shop s p a).1.userLocks k = true ∧ (p.userRow = some k ∨ s.userLocks k = false) := by
  have houtcome := act_outcome shop s p a
  generalize act shop s p a = r at h houtcome
  have hsame : p.userRow = some k → s.userLocks k = true ∧ (p.userRow = some k ∨ s.userLocks k = false) :=
    fun hrow => ⟨hlocked hrow, .inl hrow⟩
  cases houtcome with
  | waits => exact hsame h
  | ends result | commits tx db quota _ _ => cases h
  | opensOrder _ _ _ _ tx _ _ _ hrow =>
    have hnone : tx.userRow = some k := h
    rw [hrow] at hnone
    cases hnone
  | opensBalance tx _ _ hrow hfree =>
    have hk : tx.userRow = some k := h
    rw [hrow] at hk
    cases hk
    exact ⟨if_pos rfl, .inr hfree⟩
  | counts tx hphase _ | goesOn tx hphase =>
    refine hsame ?_
    rw [Proc.userRow, hphase]
    exact h
  | locksUser tx _ _ hfree =>
    cases h
    exact ⟨if_pos rfl, .inr hfree⟩

/-- A statement frees no row but the one its transaction holds. -/
theorem act_frees {k : ℤ} (hlocked : s.userLocks k = true)
    (hrow : p.userRow ≠ some k) : (act shop s p a).1.userLocks k = true := by
  have houtcome := act_outcome shop s p a
  have hlock : ∀ row, lock s.userLocks row k = true := by
    intro row
    rw [lock]
    split
    · rfl
    · exact hlocked
  have hunlock : unlock s.userLocks (p.phase.tx.bind Tx.userRow) k = true := by
    have hnot : ¬ p.phase.tx.bind Tx.userRow = some k := hrow
    rw [unlock, if_neg hnot]
    exact hlocked
  generalize act shop s p a = r at houtcome
  cases houtcome with
  | waits | opensOrder | counts | goesOn => exact hlocked
  | ends result | commits => exact hunlock
  | opensBalance tx | locksUser tx => exact hlock tx.userId

/-- A balance purchase that may still insert holds the row of the user. -/
theorem userRow_of_pending {planId : ℤ} (h : HoldsUser p)
    (hpending : pending userId planId p ≠ 0) : p.userRow = some userId := by
  rw [pending] at hpending
  split at hpending
  · rename_i tx hphase
    have huser : tx.userId = userId ∧ tx.plan.id = planId := by
      by_contra hne
      exact hpending (if_neg hne)
    have htx := Phase.tx_of_inserting hphase
    rw [Proc.userRow, htx, ← huser.1]
    exact h.2 tx htx
  · exact (hpending rfl).elim

/-- **Balance purchases keep the limit in every interleaving**: the row of the user makes each count
alone. -/
theorem balance_purchases_within_limit (hplan : shop.plans plan.id = some plan) (hlimit : 0 < plan.maxPurchasePerUser)
    (start : Shared) (purchases : ι → ℤ × ℤ) (acts : List (ι × Action)) : (owned (run (move (act shop))
        (opening start fun i => .balance (purchases i).1 (purchases i).2) acts).shared.db.store userId plan.id : ℤ) ≤
      max plan.maxPurchasePerUser (owned start.db.store userId plan.id) := by
  refine (run_inv hplan hlimit ?_).owned_le
  refine respects_of_invariant
    (I := fun s => (∀ i, HoldsUser (s.proc i)) ∧ Exclusive Proc.userRow Shared.userLocks s)
    ?_ ?_ acts ?_
  · intro s a h
    exact ⟨move_proc (P := fun _ => HoldsUser) (act_holdsUser (h.1 a.1)) fun j _ => h.1 j,
      h.2.move (fun k => act_takes (h.2.locked a.1 k)) fun k => act_frees⟩
  · intro s a h
    rw [countsAlone]
    split
    · rename_i tx hphase
      intro _ j hj
      by_contra hpending
      refine hj (h.2.single j a.1 tx.userId ?_ ?_)
      · exact userRow_of_pending (h.1 j) hpending
      · have hmine := (h.1 a.1).2 tx (by rw [hphase]; rfl)
        rw [Proc.userRow, hphase]
        exact hmine
    · trivial
  · refine ⟨fun i => ⟨⟨_, _, rfl⟩, fun tx htx => (nomatch htx)⟩, fun i k hk => (nomatch hk),
      fun i j k hk => (nomatch hk)⟩

/-- Of two purchases side by side, one is made. -/
theorem balance_purchases_within_limit_side_by_side :
    owned (run (move (act oneEach)) (opening { twoOrders with quota := fun _ => 10000000 } fun _ => .balance 1 3)
        sideBySide).shared.db.store 1 3 = 1 ∧
      (owned (run (move (act oneEach)) (opening { twoOrders with quota := fun _ => 10000000 } fun _ => .balance 1 3)
        sideBySide).shared.db.store 1 3 : ℤ) ≤ max 1 (owned twoOrders.db.store 1 3) :=
  ⟨by decide +kernel, @balance_purchases_within_limit Two _ oneEach 1 { id := 3, maxPurchasePerUser := 1 } _ rfl
    (by decide) _ (fun _ => (1, 3)) sideBySide⟩

end Interleaving

/-! ## A completion alone -/

section Alone

variable {shop : Shop} {s : Shared} {p : Proc} {a : Action}

/-- The statements of a transaction end as the whole call does. -/
def EndsAs (db : OrderDB) (r : Shared × Proc) : Except OrderError OrderDB → Prop
  | .ok db' => r.1.db = db' ∧ r.2.phase = .done (.ok ())
  | .error e => r.1.db = db ∧ r.2.phase = .done (.error (.order e))

theorem alone_finish (n : ℕ) (result : Except PurchaseError Unit) :
    alone (act shop) a n (finish s p result).1 (finish s p result).2 = finish s p result :=
  alone_of_fixed rfl n

theorem fulfil_counted (env : OrderEnv) (ok : Bool) (subId : ℤ) (db : OrderDB)
    (order : SubscriptionOrder) (plan : SubscriptionPlan) (payload method : String) :
    fulfil env ok subId db order plan payload method =
      if plan.id = 0 then .error (.create .invalidPlan)
      else if order.userId ≤ 0 then .error (.create .invalidUserId)
      else if limitReached db.store order.userId plan then .error (.create .purchaseLimit)
      else fulfil env ok subId db order (counted plan) payload method := by
  rw [fulfil, createUserSubscriptionFromPlanTx_counted]
  by_cases hplan : plan.id = 0
  · rw [if_pos hplan, if_pos hplan]
  by_cases huser : order.userId ≤ 0
  · rw [if_neg hplan, if_pos huser, if_neg hplan, if_pos huser]
  rw [if_neg hplan, if_neg huser, if_neg hplan, if_neg huser]
  by_cases hlimit : limitReached db.store order.userId plan
  · rw [if_pos hlimit, if_pos hlimit]
  · rw [if_neg hlimit, if_neg hlimit, fulfil]

variable {order : SubscriptionOrder} {payload method : String}

/-- The writes of a completion and its commit. -/
theorem write_alone {tx : Tx} (hphase : p.phase = .write tx) (hpurpose : tx.purpose = .order order payload method)
    (hok : a.ok = true) (n : ℕ) :
    EndsAs s.db (alone (act shop) a (n + 1) s p)
      (fulfil (shop.env a) true a.subId s.db order (counted tx.plan) payload method) := by
  rw [alone_succ, act, hphase]
  simp only [commit, hpurpose, hok]
  cases fulfil (shop.env a) true a.subId s.db order (counted tx.plan) payload method with
  | error e | ok db' =>
    simp only [alone_finish]
    exact ⟨rfl, rfl⟩

/-- A completion from its count on. -/
theorem count_alone {tx : Tx} (hphase : p.phase = .count tx) (hpurpose : tx.purpose = .order order payload method)
    (huser : order.userId = tx.userId) (hok : a.ok = true) (hfree : s.userLocks tx.userId = false) (n : ℕ) :
    EndsAs s.db (alone (act shop) a (n + 3) s p)
      (fulfil (shop.env a) true a.subId s.db order tx.plan payload method) := by
  rw [fulfil_counted, huser, alone_succ, act, hphase]
  simp only [hok, not_true_eq_false, if_false]
  by_cases hplan : tx.plan.id = 0
  · simp only [if_pos hplan, alone_finish]
    exact ⟨rfl, rfl⟩
  by_cases hid : tx.userId ≤ 0
  · simp only [if_neg hplan, if_pos hid, alone_finish]
    exact ⟨rfl, rfl⟩
  by_cases hlimit : limitReached s.db.store tx.userId tx.plan
  · simp only [if_neg hplan, if_neg hid, if_pos hlimit, alone_finish]
    exact ⟨rfl, rfl⟩
  simp only [if_neg hplan, if_neg hid, if_neg hlimit]
  rw [alone_succ, act]
  simp only [hfree, hok, not_true_eq_false, Bool.false_eq_true, if_false]
  split
  · exact write_alone (s := { s with userLocks := lock s.userLocks tx.userId })
      (p := { p with phase := .write { tx with userRow := some tx.userId } }) rfl hpurpose hok n
  · exact write_alone (p := { p with phase := .write tx }) rfl hpurpose hok n

/-- **A completion alone**: its statements do what `completeSubscriptionOrder` does. -/
theorem complete_alone (hok : a.ok = true) (tradeNo payload provider method : String)
    (horder : s.orderLocks tradeNo = false) (huser : ∀ u, s.userLocks u = false) :
    EndsAs s.db (alone (act shop) a 4 s ⟨.complete tradeNo payload provider method, .start⟩)
      (completeSubscriptionOrder (shop.env a) true a.subId s.db tradeNo payload provider method) := by
  rw [alone_succ, act, completeSubscriptionOrder]
  simp only [horder, Bool.false_eq_true, if_false, openOrder, hok, not_true_eq_false]
  by_cases hempty : tradeNo = ""
  · simp only [if_pos hempty, alone_finish]
    exact ⟨rfl, rfl⟩
  simp only [if_neg hempty]
  cases s.db.orders.find tradeNo with
  | none =>
    simp only [alone_finish]
    exact ⟨rfl, rfl⟩
  | some order =>
    by_cases hprovider : provider ≠ "" ∧ order.paymentProvider ≠ provider
    · simp only [if_pos hprovider, alone_finish]
      exact ⟨rfl, rfl⟩
    by_cases hsuccess : order.status = .success
    · simp only [if_neg hprovider, if_pos hsuccess, alone_finish]
      exact ⟨rfl, rfl⟩
    by_cases hstatus : order.status ≠ .pending
    · simp only [if_neg hprovider, if_neg hsuccess, if_pos hstatus, alone_finish]
      exact ⟨rfl, rfl⟩
    simp only [if_neg hprovider, if_neg hsuccess, if_neg hstatus]
    cases orderPlan (shop.env a) order.planId with
    | error e =>
      simp only [alone_finish]
      exact ⟨rfl, rfl⟩
    | ok plan =>
      let tx : Tx := ⟨order.userId, plan, .order order payload method, some tradeNo, none⟩
      exact count_alone (s := { s with orderLocks := lock s.orderLocks tradeNo })
        (p := ⟨.complete tradeNo payload provider method, .count tx⟩) rfl rfl rfl hok
        (huser order.userId) 0

end Alone

end OneApi.Subscription.PurchaseLimit
