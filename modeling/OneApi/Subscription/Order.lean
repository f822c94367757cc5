import OneApi.Lib.Run
import OneApi.Subscription.Lifecycle

/-!
# Subscription orders

An order is paid for outside; payment callbacks then complete it (`CompleteSubscriptionOrder`) and
time-outs expire it (`ExpireSubscriptionOrder`), in any order and any number of times.  Each call
is one transaction under the lock of the order row, so a run is a sequence of calls.

The invariant `Progress` has one case for each status an order can be in after it was pending:
what the calls have created so far is decided by that status.
-/

namespace OneApi.Subscription.Order

open OneApi.Lib OneApi.Lib.Run OneApi.Lib.Go
open OneApi.Subscription.Model OneApi.Subscription.Lifecycle

/-- `TopUpStatus*`; `other` is any other text. -/
inductive OrderStatus
  | pending
  | success
  | failed
  | expired
  | other (text : String)
  deriving Repr, DecidableEq

/-- `SubscriptionOrder`.  The money is a `float64` that is only ever copied. -/
structure SubscriptionOrder where
  userId : ℤ
  planId : ℤ
  money : ℚ
  tradeNo : String
  paymentMethod : String
  paymentProvider : String
  status : OrderStatus
  createTime : ℤ
  completeTime : ℤ
  providerPayload : String
  deriving DecidableEq

/-- The fields of `TopUp` the mirror record of an order uses. -/
structure TopUp where
  userId : ℤ
  amount : ℤ
  money : ℚ
  tradeNo : String
  paymentMethod : String
  createTime : ℤ
  completeTime : ℤ
  status : OrderStatus
  deriving DecidableEq

inductive OrderError
  | tradeNoEmpty
  | orderNotFound
  | paymentMethodMismatch
  | statusInvalid
  | invalidPlanId
  | planNotFound
  | invalidSubscriptionPlanId
  | packageByAdminOnly
  | create (e : LifecycleError)
  | database
  deriving Repr, DecidableEq

def OrderError.message : OrderError → String
  | .tradeNoEmpty => "tradeNo is empty"
  | .orderNotFound => "subscription order not found"
  | .paymentMethodMismatch => "payment method mismatch"
  | .statusInvalid => "subscription order status invalid"
  | .invalidPlanId => "invalid plan id"
  | .planNotFound => "record not found"
  | .invalidSubscriptionPlanId => "invalid subscription plan id"
  | .packageByAdminOnly => "agent plan packages may only be assigned by an administrator"
  | .create e => e.message
  | .database => "database error"

/-- The tables the calls write; both have a unique index on `trade_no`. -/
structure OrderDB where
  store : Store
  orders : Table SubscriptionOrder SubscriptionOrder.tradeNo
  topups : Table TopUp TopUp.tradeNo

/-- What a call reads besides the tables: the clocks of the database and of the process, the local
zone, the plans, and which plans are agent plan packages. -/
structure OrderEnv where
  now : ℤ
  timestamp : ℤ
  loc : Location
  plans : ℤ → Option SubscriptionPlan
  packagePlans : ℤ → Bool

def getSubscriptionPlanByIdTx (env : OrderEnv) (id : ℤ) : Except OrderError SubscriptionPlan :=
  if id ≤ 0 then .error .invalidPlanId
  else
    match env.plans id with
    | none => .error .planNotFound
    | some plan => .ok plan

def isAgentPlanPackageSubscriptionPlanTx (env : OrderEnv) (planId : ℤ) : Except OrderError Bool :=
  if planId ≤ 0 then .error .invalidSubscriptionPlanId else .ok (env.packagePlans planId)

def upsertSubscriptionTopUpTx (timestamp : ℤ) (topups : Table TopUp TopUp.tradeNo)
    (order : SubscriptionOrder) : Except OrderError (Table TopUp TopUp.tradeNo) :=
  match topups.find order.tradeNo with
  | none =>
    match topups.insert ⟨order.userId, 0, order.money, order.tradeNo, order.paymentMethod,
        order.createTime, timestamp, .success⟩ with
    | none => .error .database
    | some topups => .ok topups
  | some topup =>
    if topup.paymentMethod ≠ "" ∧ topup.paymentMethod ≠ order.paymentMethod then
      .error .paymentMethodMismatch
    else
      .ok (topups.save { topup with
        money := order.money
        paymentMethod := if topup.paymentMethod = "" then order.paymentMethod
          else topup.paymentMethod
        createTime := if topup.createTime = 0 then order.createTime else topup.createTime
        completeTime := timestamp
        status := .success })

/-- The order as a completed call saves it. -/
def completedOrder (timestamp : ℤ) (order : SubscriptionOrder)
    (providerPayload actualPaymentMethod : String) : SubscriptionOrder :=
  { order with
    status := .success
    completeTime := timestamp
    providerPayload := if providerPayload ≠ "" then providerPayload else order.providerPayload
    paymentMethod := if actualPaymentMethod ≠ "" ∧ order.paymentMethod ≠ actualPaymentMethod then
      actualPaymentMethod else order.paymentMethod }

/-- The plan of an order, which must not be an agent plan package.  A disabled plan does not stop an
order that has been paid. -/
def orderPlan (env : OrderEnv) (planId : ℤ) : Except OrderError SubscriptionPlan :=
  match getSubscriptionPlanByIdTx env planId with
  | .error e => .error e
  | .ok plan =>
    match isAgentPlanPackageSubscriptionPlanTx env plan.id with
    | .error e => .error e
    | .ok true => .error .packageByAdminOnly
    | .ok false => .ok plan

/-- The writes of a completion: the subscription, the top-up record, the order. -/
def fulfil (env : OrderEnv) (ok : Bool) (subId : ℤ) (db : OrderDB) (order : SubscriptionOrder)
    (plan : SubscriptionPlan) (providerPayload actualPaymentMethod : String) : Except OrderError OrderDB :=
  match createUserSubscriptionFromPlanTx env.loc env.now db.store subId order.userId plan "order" with
  | .error e => .error (.create e)
  | .ok (store, _) =>
    match upsertSubscriptionTopUpTx env.timestamp db.topups order with
    | .error e => .error e
    | .ok topups =>
      let order := completedOrder env.timestamp order providerPayload actualPaymentMethod
      if ok then .ok ⟨store, db.orders.save order, topups⟩ else .error .database

/-- `CompleteSubscriptionOrder`; `subId` is the key a new subscription would get, and `ok = false` a
write or a commit that fails. -/
def completeSubscriptionOrder (env : OrderEnv) (ok : Bool) (subId : ℤ) (db : OrderDB)
    (tradeNo providerPayload expectedPaymentProvider actualPaymentMethod : String) : Except OrderError OrderDB :=
  if tradeNo = "" then .error .tradeNoEmpty
  else
    match db.orders.find tradeNo with
    | none => .error .orderNotFound
    | some order =>
      if expectedPaymentProvider ≠ "" ∧ order.paymentProvider ≠ expectedPaymentProvider then
        .error .paymentMethodMismatch
      else if order.status = .success then .ok db
      else if order.status ≠ .pending then .error .statusInvalid
      else
        match orderPlan env order.planId with
        | .error e => .error e
        | .ok plan => fulfil env ok subId db order plan providerPayload actualPaymentMethod

/-- The order as an expiry saves it. -/
def expiredOrder (timestamp : ℤ) (order : SubscriptionOrder) : SubscriptionOrder :=
  { order with status := .expired, completeTime := timestamp }

def expireSubscriptionOrder (timestamp : ℤ) (ok : Bool) (db : OrderDB)
    (tradeNo expectedPaymentProvider : String) : Except OrderError OrderDB :=
  if tradeNo = "" then .error .tradeNoEmpty
  else
    match db.orders.find tradeNo with
    | none => .error .orderNotFound
    | some order =>
      if expectedPaymentProvider ≠ "" ∧ order.paymentProvider ≠ expectedPaymentProvider then
        .error .paymentMethodMismatch
      else if order.status ≠ .pending then .ok db
      else if ok then .ok ⟨db.store, db.orders.save (expiredOrder timestamp order), db.topups⟩
      else .error .database

/-! ## What a call does -/

variable {order : SubscriptionOrder}

/-- **A top-up record is created only where there was none.** -/
theorem upsertSubscriptionTopUpTx_keys {timestamp : ℤ} {topups topups' : Table TopUp TopUp.tradeNo}
    (h : upsertSubscriptionTopUpTx timestamp topups order = .ok topups') :
    topups'.rows.map (·.tradeNo) = topups.rows.map (·.tradeNo) ∨
      topups'.rows.map (·.tradeNo) = topups.rows.map (·.tradeNo) ++ [order.tradeNo] := by
  unfold upsertSubscriptionTopUpTx at h
  split at h
  · split at h
    · cases h
    · rename_i t hins
      cases h
      right
      rw [Table.insert_rows hins, List.map_append]
      rfl
  · split at h
    · cases h
    · cases h
      left
      exact Table.save_keys ..

variable {env : OrderEnv} {ok : Bool} {subId : ℤ} {db db' : OrderDB} {payload method : String}

variable {plan : SubscriptionPlan}

/-- The writes of a completion that succeeds. -/
theorem fulfil_writes (h : fulfil env ok subId db order plan payload method = .ok db') :
    (∃ sub, createUserSubscriptionFromPlanTx env.loc env.now db.store subId order.userId plan "order" =
        .ok (db'.store, sub)) ∧
      upsertSubscriptionTopUpTx env.timestamp db.topups order = .ok db'.topups ∧
      db'.orders = db.orders.save (completedOrder env.timestamp order payload method) := by
  rw [fulfil] at h
  split at h
  · cases h
  rename_i store sub hcreate
  split at h
  · cases h
  rename_i topups htopup
  simp only at h
  split at h
  · cases h
    exact ⟨⟨sub, hcreate⟩, htopup, rfl⟩
  · cases h

/-- **The writes of a completion go together.** -/
theorem fulfil_ok (hfind : db.orders.find order.tradeNo = some order)
    (h : fulfil env ok subId db order plan payload method = .ok db') :
    (∃ sub, sub.userId = order.userId ∧ db'.store.subs.rows = db.store.subs.rows ++ [sub]) ∧
      (db'.topups.rows.map (·.tradeNo) = db.topups.rows.map (·.tradeNo) ∨
        db'.topups.rows.map (·.tradeNo) = db.topups.rows.map (·.tradeNo) ++ [order.tradeNo]) ∧
      ∃ order', db'.orders.find order.tradeNo = some order' ∧ order'.status = .success := by
  obtain ⟨⟨sub, hcreate⟩, htopup, horders⟩ := fulfil_writes h
  obtain ⟨-, hins, huser, -⟩ := createUserSubscriptionFromPlanTx_ok hcreate
  set done := completedOrder env.timestamp order payload method with hdone
  have hsave : (db.orders.save done).find order.tradeNo = some done := by
    rw [show order.tradeNo = done.tradeNo from rfl] at hfind ⊢
    exact Table.find_save_self hfind
  rw [horders]
  exact ⟨⟨sub, huser, Table.insert_rows hins⟩, upsertSubscriptionTopUpTx_keys htopup, done, hsave,
    rfl⟩

variable {tradeNo : String}

/-- **A completion that succeeds** finds the order done, or finds it pending and fulfils it. -/
theorem completeSubscriptionOrder_ok {provider : String} (hfind : db.orders.find tradeNo = some order)
    (h : completeSubscriptionOrder env ok subId db tradeNo payload provider method = .ok db') :
    (order.status = .success ∧ db' = db) ∨
      (order.status = .pending ∧ ∃ plan, fulfil env ok subId db order plan payload method = .ok db') := by
  unfold completeSubscriptionOrder at h
  split at h
  · cases h
  rw [hfind] at h
  simp only at h
  split at h
  · cases h
  split at h
  · rename_i hst
    cases h
    exact .inl ⟨hst, rfl⟩
  split at h
  · cases h
  rename_i hst
  split at h
  · cases h
  · exact .inr ⟨not_not.mp hst, _, h⟩

/-- **An expiry that succeeds** finds the order settled, or marks the pending order. -/
theorem expireSubscriptionOrder_ok {timestamp : ℤ} {provider : String} (hfind : db.orders.find tradeNo = some order)
    (h : expireSubscriptionOrder timestamp ok db tradeNo provider = .ok db') :
    (order.status ≠ .pending ∧ db' = db) ∨
      (order.status = .pending ∧ db' = ⟨db.store, db.orders.save (expiredOrder timestamp order), db.topups⟩) := by
  unfold expireSubscriptionOrder at h
  split at h
  · cases h
  rw [hfind] at h
  simp only at h
  split at h
  · cases h
  split at h
  · rename_i hst
    cases h
    exact .inl ⟨hst, rfl⟩
  rename_i hst
  split at h
  · cases h
    exact .inr ⟨not_not.mp hst, rfl⟩
  · cases h

/-! ## Every interleaving of calls -/

/-- The calls for one order, with what their environment decides. -/
inductive Call
  | complete (env : OrderEnv) (ok : Bool) (subId : ℤ)
      (providerPayload expectedPaymentProvider actualPaymentMethod : String)
  | expire (timestamp : ℤ) (ok : Bool) (expectedPaymentProvider : String)

/-- The tables after a call; a call that returns an error is rolled back. -/
def step (tradeNo : String) (db : OrderDB) : Call → OrderDB
  | .complete env ok subId payload provider method =>
    (completeSubscriptionOrder env ok subId db tradeNo payload provider method).toOption.getD db
  | .expire timestamp ok provider =>
    (expireSubscriptionOrder timestamp ok db tradeNo provider).toOption.getD db

/-- The status of the order. -/
def statusOf (tradeNo : String) (db : OrderDB) : Option OrderStatus :=
  (db.orders.find tradeNo).map (·.status)

/-- **What the calls have done to a pending order**, by the status it is in now. -/
inductive Progress (order : SubscriptionOrder) (db₀ db : OrderDB) : Prop
  | pending (hfind : db.orders.find order.tradeNo = some order)
      (hsubs : db.store.subs.rows = db₀.store.subs.rows)
      (htopups : db.topups.rows.map (·.tradeNo) = db₀.topups.rows.map (·.tradeNo))
  | expired (hstatus : statusOf order.tradeNo db = some .expired)
      (hsubs : db.store.subs.rows = db₀.store.subs.rows)
      (htopups : db.topups.rows.map (·.tradeNo) = db₀.topups.rows.map (·.tradeNo))
  | success (hstatus : statusOf order.tradeNo db = some .success)
      (hsubs : ∃ sub, sub.userId = order.userId ∧ db.store.subs.rows = db₀.store.subs.rows ++ [sub])
      (htopups : db.topups.rows.map (·.tradeNo) = db₀.topups.rows.map (·.tradeNo) ∨
        db.topups.rows.map (·.tradeNo) = db₀.topups.rows.map (·.tradeNo) ++ [order.tradeNo])

variable {status : OrderStatus} (h : statusOf tradeNo db = some status)

include h in
theorem find_of_statusOf : ∃ order, db.orders.find tradeNo = some order ∧ order.status = status :=
  Option.map_eq_some_iff.mp h

include h in
/-- A call on an order that is settled changes nothing. -/
theorem step_of_settled (hsettled : status ≠ .pending) (call : Call) : step tradeNo db call = db := by
  obtain ⟨order, hfind, rfl⟩ := find_of_statusOf h
  cases call with
  | complete env ok subId payload provider method =>
    simp only [step]
    cases hc : completeSubscriptionOrder env ok subId db tradeNo payload provider method with
    | error e => rfl
    | ok db' =>
      obtain ⟨-, rfl⟩ | ⟨hp, -⟩ := completeSubscriptionOrder_ok hfind hc
      · rfl
      · exact absurd hp hsettled
  | expire timestamp ok provider =>
    simp only [step]
    cases hc : expireSubscriptionOrder timestamp ok db tradeNo provider with
    | error e => rfl
    | ok db' =>
      obtain ⟨-, rfl⟩ | ⟨hp, -⟩ := expireSubscriptionOrder_ok hfind hc
      · rfl
      · exact absurd hp hsettled

/-- **Step lemma.** -/
theorem progress_step {db₀ : OrderDB} (hpending : order.status = .pending)
    (db : OrderDB) (call : Call) (h : Progress order db₀ db) : Progress order db₀ (step order.tradeNo db call) := by
  cases h with
  | expired hstatus hsubs htopups =>
    rw [step_of_settled hstatus (by simp)]
    exact .expired hstatus hsubs htopups
  | success hstatus hsubs htopups =>
    rw [step_of_settled hstatus (by simp)]
    exact .success hstatus hsubs htopups
  | pending hfind hsubs htopups =>
    cases call with
    | complete env ok subId payload provider method =>
      simp only [step]
      cases hc : completeSubscriptionOrder env ok subId db order.tradeNo payload provider method with
      | error e => exact .pending hfind hsubs htopups
      | ok db' =>
        obtain ⟨hst, -⟩ | ⟨-, plan, hful⟩ := completeSubscriptionOrder_ok hfind hc
        · rw [hpending] at hst; cases hst
        · obtain ⟨⟨sub, huser, hrows⟩, htop, order', hfind', hst⟩ := fulfil_ok hfind hful
          rw [hsubs] at hrows
          rw [htopups] at htop
          refine .success ?_ ⟨sub, huser, hrows⟩ htop
          show (db'.orders.find order.tradeNo).map (·.status) = some .success
          rw [hfind', Option.map_some, hst]
    | expire timestamp ok provider =>
      simp only [step]
      cases hc : expireSubscriptionOrder timestamp ok db order.tradeNo provider with
      | error e => exact .pending hfind hsubs htopups
      | ok db' =>
        obtain ⟨hst, -⟩ | ⟨-, rfl⟩ := expireSubscriptionOrder_ok hfind hc
        · exact absurd hpending hst
        · have hsave : (db.orders.save (expiredOrder timestamp order)).find order.tradeNo =
              some (expiredOrder timestamp order) := by
            rw [show order.tradeNo = (expiredOrder timestamp order).tradeNo from rfl] at hfind ⊢
            exact Table.find_save_self hfind
          refine .expired ?_ hsubs htopups
          show ((db.orders.save _).find order.tradeNo).map (·.status) = some .expired
          rw [hsave]
          rfl

theorem progress_run (hfind : db.orders.find order.tradeNo = some order) (hpending : order.status = .pending)
    (calls : List Call) : Progress order db (run (step order.tradeNo) db calls) :=
  run_preserves (progress_step hpending) calls (.pending hfind rfl rfl)

include h in
theorem run_of_settled (hsettled : status ≠ .pending) (calls : List Call) : run (step tradeNo) db calls = db := by
  induction calls with
  | nil => rfl
  | cons call calls ih =>
    rw [run_cons, step_of_settled h hsettled call]
    exact ih

/-- **An order is fulfilled exactly once.**  For every pending order and every sequence of
completions and expiries of it, with any faults: the subscriptions created are at most one, for the
user of the order, the top-up records created are at most one, for the order, the status is
`success` exactly when the subscription was created, and a status of `success` or `expired` is
never left again. -/
theorem order_fulfilled_once (db : OrderDB) (order : SubscriptionOrder)
    (hfind : db.orders.find order.tradeNo = some order) (hpending : order.status = .pending) (calls : List Call) :
    (∃ created : List UserSubscription, created.length ≤ 1 ∧
        (∀ sub ∈ created, sub.userId = order.userId) ∧
        (run (step order.tradeNo) db calls).store.subs.rows = db.store.subs.rows ++ created ∧
        (statusOf order.tradeNo (run (step order.tradeNo) db calls) = some .success ↔ created ≠ [])) ∧
      (∃ created : List String, created.length ≤ 1 ∧ (∀ tradeNo ∈ created, tradeNo = order.tradeNo) ∧
        (run (step order.tradeNo) db calls).topups.rows.map (·.tradeNo) = db.topups.rows.map (·.tradeNo) ++ created) ∧
      ∀ status, status = .success ∨ status = .expired →
        statusOf order.tradeNo (run (step order.tradeNo) db calls) = some status →
        ∀ later, statusOf order.tradeNo (run (step order.tradeNo) db (calls ++ later)) = some status := by
  refine ⟨?_, ?_, ?_⟩
  · cases progress_run hfind hpending calls with
    | pending hf hsubs _ =>
      refine ⟨[], by simp, by simp, by simpa using hsubs, ?_⟩
      simp [statusOf, hf, hpending]
    | expired hstatus hsubs _ =>
      exact ⟨[], by simp, by simp, by simpa using hsubs, by simp [hstatus]⟩
    | success hstatus hsubs _ =>
      obtain ⟨sub, huser, hrows⟩ := hsubs
      exact ⟨[sub], by simp, by simpa using huser, hrows, by simp [hstatus]⟩
  · cases progress_run hfind hpending calls with
    | pending _ _ htopups | expired _ _ htopups => exact ⟨[], by simp, by simp, by simpa using htopups⟩
    | success _ _ htopups =>
      rcases htopups with htopups | htopups
      · exact ⟨[], by simp, by simp, by simpa using htopups⟩
      · exact ⟨[order.tradeNo], by simp, by simp, htopups⟩
  · intro status hterminal hstatus later
    have hsettled : status ≠ .pending := by
      rcases hterminal with rfl | rfl <;> simp
    rw [run_append, run_of_settled hstatus hsettled]
    exact hstatus

/-- A pending order of user 1 for a plan of one month. -/
def pendingOrder : SubscriptionOrder :=
  ⟨1, 3, 10, "T1", "alipay", "epay", .pending, 50, 0, ""⟩

def pendingDB : OrderDB where
  store := ⟨.empty, fun id => if id = 1 then some "default" else none⟩
  orders := .single pendingOrder
  topups := .empty

/-- A callback that fails at its commit, its retry, a late expiry and a repeated callback. -/
def callbacks : List Call :=
  let env : OrderEnv := ⟨100, 100, Location.fixed 0, fun id => some { id }, fun _ => false⟩
  [.complete env false 7 "" "epay" "alipay", .complete env true 7 "" "epay" "alipay",
    .expire 200 true "epay", .complete env true 8 "" "epay" "alipay"]

theorem order_fulfilled_once_callbacks :
    statusOf "T1" (run (step "T1") pendingDB callbacks) = some .success ∧
      ∃ created : List UserSubscription, created.length ≤ 1 ∧
        (∀ sub ∈ created, sub.userId = 1) ∧
        (run (step "T1") pendingDB callbacks).store.subs.rows = [] ++ created ∧
        (statusOf "T1" (run (step "T1") pendingDB callbacks) = some .success ↔ created ≠ []) :=
  ⟨by decide, (order_fulfilled_once pendingDB pendingOrder (by decide) rfl callbacks).1⟩

end OneApi.Subscription.Order
