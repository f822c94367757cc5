import OneApi.Lib.Guard
import OneApi.Subscription.Model
import Mathlib.Data.List.Sort

/-!
# The transactions that move subscription quota

`PreConsumeUserSubscription`, `PostConsumeUserSubscriptionDelta`, `RefundSubscriptionPreConsume`,
`ResetDueSubscriptions` and the resets of an administrator, as functions on the two tables they
write: the subscriptions, keyed by `id`, and the pre-consume records, keyed by `request_id` (the
unique index).

A transaction that returns an error is rolled back, so it returns no new tables.  The one
procedure that is not a single transaction is the refund: it locks and marks the record in one
transaction and gives the quota back in another one, on a connection of its own, that commits
first.  It therefore returns tables together with its error.

Database failures are inputs: `ok = false` is a transaction that fails on a write or at its
commit.
-/

namespace OneApi.Subscription.PreConsume

open OneApi.Lib OneApi.Lib.Go OneApi.Lib.Guard OneApi.Subscription.Model

inductive RecordStatus
  | consumed
  | refunded
  deriving Repr, DecidableEq

/-- `SubscriptionPreConsumeRecord`. -/
structure PreConsumeRecord where
  requestId : String
  userId : ℤ
  userSubscriptionId : ℤ
  preConsumed : ℤ
  status : RecordStatus
  deriving Repr, DecidableEq

inductive SubscriptionError
  | invalidUserId
  | requestIdEmpty
  | amountNotPositive
  | alreadyRefunded
  | noActiveSubscription
  | packageQuotaInsufficient
  | quotaInsufficient (need : ℤ)
  | invalidUserSubscriptionId
  | usedExceedsTotal (used total : ℤ)
  | invalidUserIdOrPlanId
  | invalidPlanId
  | noMatchingSubscription
  | packageNotResettable
  | recordNotFound
  | database
  deriving Repr, DecidableEq

/-- The text of each error; the two of the database are those of the driver. -/
def SubscriptionError.message : SubscriptionError → String
  | .invalidUserId => "invalid userId"
  | .requestIdEmpty => "requestId is empty"
  | .amountNotPositive => "amount must be > 0"
  | .alreadyRefunded => "subscription pre-consume already refunded"
  | .noActiveSubscription => "no active subscription"
  | .packageQuotaInsufficient => "agent plan package quota insufficient"
  | .quotaInsufficient need => s!"subscription quota insufficient, need={need}"
  | .invalidUserSubscriptionId => "invalid userSubscriptionId"
  | .usedExceedsTotal used total => s!"subscription used exceeds total, used={used} total={total}"
  | .invalidUserIdOrPlanId => "invalid userId or planId"
  | .invalidPlanId => "invalid planId"
  | .noMatchingSubscription => "该用户没有有效的此套餐订阅"
  | .packageNotResettable => "agent plan packages cannot be reset"
  | .recordNotFound => "record not found"
  | .database => "database error"

/-- The tables the transactions write, and the allocations they read. -/
structure DB where
  subs : Table UserSubscription UserSubscription.id
  records : Table PreConsumeRecord PreConsumeRecord.requestId
  allocations : List AgentPlanPackageAllocation

/-- `tx.Save(&sub)`. -/
def DB.saveSub (db : DB) (sub : UserSubscription) : DB := { db with subs := db.subs.save sub }

/-- The quota used of a subscription; a row that is gone holds none. -/
def usedOf (subs : Table UserSubscription UserSubscription.id) (id : ℤ) : ℤ :=
  ((subs.find id).map (·.amountUsed)).getD 0

/-- What a call reads besides the tables: the database time, the local zone, the plans as
`getSubscriptionPlanByIdTx` answers for them (through its cache), and the rounds granted to a
catch-up loop. -/
structure Env where
  now : ℤ
  loc : Location
  plans : ℤ → Option SubscriptionPlan
  fuel : ℕ

structure SubscriptionPreConsumeResult where
  userSubscriptionId : ℤ
  preConsumed : ℤ
  amountTotal : ℤ
  amountUsedBefore : ℤ
  amountUsedAfter : ℤ
  deriving Repr, DecidableEq

/-! ## Pre-consume -/

/-- The active subscriptions of a user, in the order they are tried. -/
def activeSubscriptions (db : DB) (userId now : ℤ) : List UserSubscription :=
  (db.subs.rows.filter fun s =>
    s.userId = userId ∧ s.status = .active ∧ now < s.endTime).insertionSort endsBefore

/-- `agentPlanPackageSubscriptionIDsTx`: whether a subscription carries an allocation. -/
def isPackageSubscription (db : DB) (sub : UserSubscription) : Bool :=
  db.allocations.any fun a => a.userSubscriptionId = sub.id

def agentPlanPackageSubscriptionsForScopeTx (db : DB) (subs : List UserSubscription)
    (usingGroup modelName : String) : List UserSubscription :=
  subs.filter fun sub => db.allocations.any fun a =>
    a.userSubscriptionId = sub.id ∧ a.scopeGroup = trimSpace usingGroup ∧ (a.scopeModels.getD []).contains modelName

/-- A package subscription can take an amount. -/
def packageFits (amount : ℤ) (sub : UserSubscription) : Bool :=
  0 < sub.amountTotal ∧ amount ≤ sub.amountTotal - sub.amountUsed

/-- Any other subscription can take an amount; a total of zero is unlimited. -/
def subscriptionFits (amount : ℤ) (sub : UserSubscription) : Bool :=
  ¬ (0 < sub.amountTotal ∧ sub.amountTotal - sub.amountUsed < amount)

/-- Outcome of trying candidates in order: the table with the lazy resets written, and the
candidate that fits. -/
abbrev Selection := Table UserSubscription UserSubscription.id × Option UserSubscription

/-- The loop over candidates: look up the plan, reset lazily, stop at the first that fits. -/
def scan (env : Env) (fits : UserSubscription → Bool) :
    Table UserSubscription UserSubscription.id → List UserSubscription → Option (Except SubscriptionError Selection)
  | subs, [] => some (.ok (subs, none))
  | subs, candidate :: rest =>
    match env.plans candidate.planId with
    | none => some (.error .recordNotFound)
    | some plan =>
      match maybeResetUserSubscriptionWithPlanTx env.fuel env.loc candidate plan env.now with
      | none => none
      | some sub =>
        if fits sub then some (.ok (subs.save sub, some sub))
        else scan env fits (subs.save sub) rest

/-- The candidates among the active subscriptions: the packages of the scope if there are any,
otherwise the subscriptions that are no packages. -/
def candidates (db : DB) (subs : List UserSubscription) (modelName usingGroup : String) : List UserSubscription :=
  let packages := agentPlanPackageSubscriptionsForScopeTx db subs usingGroup modelName
  if packages = [] then subs.filter fun s => !isPackageSubscription db s else packages

/-- When a candidate can take the amount. -/
def candidateFits (db : DB) (subs : List UserSubscription) (modelName usingGroup : String)
    (amount : ℤ) : UserSubscription → Bool :=
  if agentPlanPackageSubscriptionsForScopeTx db subs usingGroup modelName = [] then
    subscriptionFits amount
  else packageFits amount

/-- The part of `PreConsumeUserSubscription` that picks one of the subscriptions it has locked. -/
def selectFrom (env : Env) (db : DB) (subs : List UserSubscription) (modelName usingGroup : String) (amount : ℤ) :
    Option (Except SubscriptionError (Table UserSubscription UserSubscription.id × UserSubscription)) :=
  match scan env (candidateFits db subs modelName usingGroup amount) db.subs
      (candidates db subs modelName usingGroup) with
  | none => none
  | some (.error e) => some (.error e)
  | some (.ok (table, some sub)) => some (.ok (table, sub))
  | some (.ok (_, none)) =>
    if agentPlanPackageSubscriptionsForScopeTx db subs usingGroup modelName = [] then
      some (.error (.quotaInsufficient amount))
    else some (.error .packageQuotaInsufficient)

/-- Lock the active subscriptions and pick one. -/
def selectSubscription (env : Env) (db : DB) (userId : ℤ) (modelName usingGroup : String) (amount : ℤ) :
    Option (Except SubscriptionError (Table UserSubscription UserSubscription.id × UserSubscription)) :=
  let subs := activeSubscriptions db userId env.now
  if subs = [] then some (.error .noActiveSubscription)
  else selectFrom env db subs modelName usingGroup amount

/-- The answer for a request that already has a record. -/
def existingResult (db : DB) (existing : PreConsumeRecord) : Except SubscriptionError SubscriptionPreConsumeResult :=
  if existing.status = .refunded then .error .alreadyRefunded
  else
    match db.subs.find existing.userSubscriptionId with
    | none => .error .recordNotFound
    | some sub =>
      .ok ⟨sub.id, existing.preConsumed, sub.amountTotal, sub.amountUsed, sub.amountUsed⟩

/-- `preConsumeSubscriptionTx`: insert the record under the unique index, then charge.  On a
duplicate key it answers from the record that is there, but names the subscription it picked;
`visible` is whether the isolation level lets the transaction read that record. -/
def preConsumeSubscriptionTx (visible : Bool) (db : DB) (requestId : String) (userId : ℤ)
    (sub : UserSubscription) (amount : ℤ) : Except SubscriptionError (DB × SubscriptionPreConsumeResult) :=
  match db.records.insert ⟨requestId, userId, sub.id, amount, .consumed⟩ with
  | some records =>
    let charged := { sub with amountUsed := sub.amountUsed + amount }
    .ok ({ db with subs := db.subs.save charged, records },
      ⟨sub.id, amount, sub.amountTotal, sub.amountUsed, charged.amountUsed⟩)
  | none =>
    match if visible then db.records.find requestId else none with
    | none => .error .database
    | some duplicate =>
      if duplicate.status = .refunded then .error .alreadyRefunded
      else .ok (db, ⟨sub.id, duplicate.preConsumed, sub.amountTotal, sub.amountUsed, sub.amountUsed⟩)

/-- The checks on the arguments and the query for the record; `none` is a request to go on with. -/
def checkRequest (ok : Bool) (db : DB) (requestId : String) (userId amount : ℤ) :
    Option (Except SubscriptionError SubscriptionPreConsumeResult) :=
  if userId ≤ 0 then some (.error .invalidUserId)
  else if trimSpace requestId = "" then some (.error .requestIdEmpty)
  else if amount ≤ 0 then some (.error .amountNotPositive)
  else if !ok then some (.error .database)
  else (db.records.find requestId).map (existingResult db)

/-- `PreConsumeUserSubscription`, run as one serialised transaction. -/
def preConsumeUserSubscription (env : Env) (ok : Bool) (db : DB) (requestId : String) (userId : ℤ)
    (modelName usingGroup : String) (amount : ℤ) :
    Option (Except SubscriptionError (DB × SubscriptionPreConsumeResult)) :=
  match checkRequest ok db requestId userId amount with
  | some answer => some (answer.map fun r => (db, r))
  | none =>
    match selectSubscription env db userId modelName usingGroup amount with
    | none => none
    | some (.error e) => some (.error e)
    | some (.ok (subs, sub)) =>
      some (preConsumeSubscriptionTx true { db with subs } requestId userId sub amount)

/-! ## Settlement deltas and refunds -/

def postConsumeUserSubscriptionDelta (ok : Bool) (db : DB) (userSubscriptionId delta : ℤ) :
    Except SubscriptionError DB :=
  if userSubscriptionId ≤ 0 then .error .invalidUserSubscriptionId
  else if delta = 0 then .ok db
  else
    match db.subs.find userSubscriptionId with
    | none => .error .recordNotFound
    | some sub =>
      let newUsed := if sub.amountUsed + delta < 0 then 0 else sub.amountUsed + delta
      if 0 < sub.amountTotal ∧ sub.amountTotal < newUsed then
        .error (.usedExceedsTotal newUsed sub.amountTotal)
      else if ok then .ok (db.saveSub { sub with amountUsed := newUsed })
      else .error .database

/-- Which of the two transactions of a refund attempt commit. -/
structure RefundFaults where
  quotaOk : Bool
  markOk : Bool
  deriving Repr, DecidableEq

/-- The last statement of a refund: mark the record and commit the outer transaction. -/
def markRefunded (ok : Bool) (db : DB) (record : PreConsumeRecord) : DB × Except SubscriptionError Unit :=
  if ok then ({ db with records := db.records.save { record with status := .refunded } }, .ok ())
  else (db, .error .database)

/-- `RefundSubscriptionPreConsume`.  The quota goes back in a transaction of its own, so it stays
given back when the mark fails. -/
def refundSubscriptionPreConsume (faults : RefundFaults) (db : DB) (requestId : String) :
    DB × Except SubscriptionError Unit :=
  if trimSpace requestId = "" then (db, .error .requestIdEmpty)
  else
    match db.records.find requestId with
    | none => (db, .error .recordNotFound)
    | some record =>
      if record.status = .refunded then (db, .ok ())
      else if record.preConsumed ≤ 0 then markRefunded faults.markOk db record
      else
        match postConsumeUserSubscriptionDelta faults.quotaOk db record.userSubscriptionId (-record.preConsumed) with
        | .error e => (db, .error e)
        | .ok db' => markRefunded faults.markOk db' record

/-! ## Resets -/

/-- `next_reset_time > 0 AND next_reset_time <= now`. -/
def resetDue (now : ℤ) (sub : UserSubscription) : Prop :=
  0 < sub.nextResetTime ∧ sub.nextResetTime ≤ now

instance (now : ℤ) (sub : UserSubscription) : Decidable (resetDue now sub) :=
  inferInstanceAs (Decidable (_ ∧ _))

/-- The transaction of `ResetDueSubscriptions` on one row of its list: the row is read again under
its lock, and is counted when it is still due. -/
def resetDueRow (env : Env) (ok : Bool) (plan : SubscriptionPlan)
    (subs : Table UserSubscription UserSubscription.id) (id : ℤ) :
    Option (Except SubscriptionError (Table UserSubscription UserSubscription.id × ℕ)) :=
  match subs.find id with
  | none => some (.ok (subs, 0))
  | some locked =>
    if resetDue env.now locked then
      match maybeResetUserSubscriptionWithPlanTx env.fuel env.loc locked plan env.now with
      | none => none
      | some sub => if ok then some (.ok (subs.save sub, 1)) else some (.error .database)
    else some (.ok (subs, 0))

/-- The transaction both resets of an administrator run: every row that matches is reset. -/
def adminResetTx (env : Env) (ok : Bool) (db : DB) (plan : SubscriptionPlan)
    (hit : UserSubscription → Bool) (advanceResetTime : Bool) : Except SubscriptionError DB :=
  let reset := fun s => resetUserSubscriptionTx env.loc s plan env.now advanceResetTime
  if ok then
    .ok { db with subs := db.subs.updateWhere hit reset fun _ => resetUserSubscriptionTx_id .. }
  else .error .database

/-- `AdminResetUserSubscriptionsByPlan`; `isPackage` is what
`IsAgentPlanPackageSubscriptionPlanTx` answers for the plan. -/
def adminResetUserSubscriptionsByPlan (env : Env) (ok : Bool) (db : DB) (isPackage : Bool)
    (userId planId : ℤ) (advanceResetTime : Bool) : Except SubscriptionError DB :=
  let hit := fun s : UserSubscription => decide
    (s.userId = userId ∧ s.planId = planId ∧ s.status = .active ∧ env.now < s.endTime)
  if userId ≤ 0 ∨ planId ≤ 0 then .error .invalidUserIdOrPlanId
  else
    match env.plans planId with
    | none => .error .recordNotFound
    | some plan =>
      if isPackage then .error .packageNotResettable
      else if db.subs.rows.filter hit = [] then .error .noMatchingSubscription
      else adminResetTx env ok db plan hit advanceResetTime

/-- `AdminResetPlanSubscriptions`: the same over all users, and no match is no error. -/
def adminResetPlanSubscriptions (env : Env) (ok : Bool) (db : DB) (isPackage : Bool)
    (planId : ℤ) (advanceResetTime : Bool) : Except SubscriptionError DB :=
  let hit := fun s : UserSubscription => decide (s.planId = planId ∧ s.status = .active ∧ env.now < s.endTime)
  if planId ≤ 0 then .error .invalidPlanId
  else
    match env.plans planId with
    | none => .error .recordNotFound
    | some plan =>
      if isPackage then .error .packageNotResettable
      else adminResetTx env ok db plan hit advanceResetTime

/-! ## What the transactions do

One lemma for each transaction says what a successful call is; later modules use these and do not
unfold the transactions again. -/

variable {env : Env} {fits : UserSubscription → Bool} {t t' : Table UserSubscription UserSubscription.id}
  {cands subs : List UserSubscription} {c sub : UserSubscription} {r : Option UserSubscription}

/-- A round of the scan resets the candidate, and ends with it or goes on. -/
theorem scan_cons (h : scan env fits t (c :: cands) = some (.ok (t', r))) :
    ∃ plan s, env.plans c.planId = some plan ∧
      maybeResetUserSubscriptionWithPlanTx env.fuel env.loc c plan env.now = some s ∧
      (fits s = true ∧ t' = t.save s ∧ r = some s ∨
        fits s = false ∧ scan env fits (t.save s) cands = some (.ok (t', r))) := by
  simp only [scan] at h
  split at h
  · cases h
  next plan hplan =>
  split at h
  · cases h
  next s hs =>
  refine ⟨plan, s, hplan, hs, ?_⟩
  split at h
  · next hfit =>
    simp only [Option.some.injEq, Except.ok.injEq, Prod.mk.injEq] at h
    exact .inl ⟨hfit, h.1.symm, h.2.symm⟩
  · next hfit => exact .inr ⟨Bool.eq_false_iff.mpr hfit, h⟩

/-- **The scan keeps every row property that a lazy reset keeps**, and what it picks fits. -/
theorem scan_preserves {P : UserSubscription → Prop} (hreset : ∀ c plan sub, P c →
      maybeResetUserSubscriptionWithPlanTx env.fuel env.loc c plan env.now = some sub → P sub)
    (ht : ∀ x ∈ t.rows, P x) (hc : ∀ c ∈ cands, P c) (h : scan env fits t cands = some (.ok (t', r))) :
    (∀ x ∈ t'.rows, P x) ∧ ∀ sub, r = some sub → P sub ∧ fits sub = true := by
  induction cands generalizing t with
  | nil =>
    simp only [scan, Option.some.injEq, Except.ok.injEq, Prod.mk.injEq] at h
    obtain ⟨rfl, rfl⟩ := h
    exact ⟨ht, by simp⟩
  | cons c cands ih =>
    obtain ⟨plan, s, -, hs, hround⟩ := scan_cons h
    have hP : P s := hreset c plan s (hc c (by simp)) hs
    have ht' : ∀ x ∈ (t.save s).rows, P x := Table.forall_save ht hP
    rcases hround with ⟨hfit, rfl, rfl⟩ | ⟨-, h⟩
    · refine ⟨ht', ?_⟩
      rintro x ⟨⟩
      exact ⟨hP, hfit⟩
    · exact ih ht' (fun c hc' => hc c (by simp [hc'])) h

/-- The picked row is the one the table holds after the scan. -/
theorem scan_find (hc : ∀ c ∈ cands, c.id ∈ t.rows.map UserSubscription.id)
    (h : scan env fits t cands = some (.ok (t', some sub))) : t'.find sub.id = some sub := by
  induction cands generalizing t with
  | nil => simp [scan] at h
  | cons c cands ih =>
    obtain ⟨plan, s, -, hs, ⟨-, rfl, hr⟩ | ⟨-, h⟩⟩ := scan_cons h
    · cases hr
      obtain ⟨old, hold, hk⟩ := List.mem_map.mp (hc c (by simp))
      have hfind : t.find sub.id = some old := by
        rw [maybeReset_id hs, ← hk]
        exact Table.find_of_mem hold
      exact Table.find_save_self hfind
    · apply ih _ h
      intro x hx
      rw [Table.save_keys]
      exact hc x (by simp [hx])

variable {db db' : DB} {userId amount : ℤ} {modelName usingGroup requestId : String} {ok : Bool}

theorem mem_candidates (h : c ∈ candidates db subs modelName usingGroup) : c ∈ subs := by
  unfold candidates agentPlanPackageSubscriptionsForScopeTx at h
  simp only at h
  split at h
  · exact List.mem_of_mem_filter h
  · exact List.mem_of_mem_filter h

theorem candidateFits_room (h : candidateFits db subs modelName usingGroup amount sub = true) :
    subscriptionFits amount sub = true := by
  unfold candidateFits at h
  split at h
  · exact h
  · simp only [packageFits, subscriptionFits, decide_eq_true_eq] at h ⊢
    omega

/-- After a lazy reset a candidate can take the amount. -/
def hasRoom (env : Env) (fits : UserSubscription → Bool) (c : UserSubscription) : Bool :=
  match env.plans c.planId with
  | none => false
  | some plan =>
    match maybeResetUserSubscriptionWithPlanTx env.fuel env.loc c plan env.now with
    | none => false
    | some sub => fits sub

/-- **The scan picks the first candidate with room.** -/
theorem scan_first (h : scan env fits t cands = some (.ok (t', some sub))) :
    ∃ c, cands.find? (hasRoom env fits) = some c ∧ c.id = sub.id := by
  induction cands generalizing t with
  | nil => simp [scan] at h
  | cons c cands ih =>
    obtain ⟨plan, s, hplan, hs, hround⟩ := scan_cons h
    have hroom : hasRoom env fits c = fits s := by simp [hasRoom, hplan, hs]
    rcases hround with ⟨hfit, -, hr⟩ | ⟨hfit, h⟩
    · cases hr
      exact ⟨c, List.find?_cons_of_pos (hroom.trans hfit), (maybeReset_id hs).symm⟩
    · rw [List.find?_cons_of_neg (by simp [hroom, hfit])]
      exact ih h

/-- The picked row is the lazy reset of a candidate, by the plan of the candidate. -/
theorem scan_picked (h : scan env fits t cands = some (.ok (t', some sub))) :
    ∃ c ∈ cands, ∃ plan, env.plans c.planId = some plan ∧
      maybeResetUserSubscriptionWithPlanTx env.fuel env.loc c plan env.now = some sub := by
  induction cands generalizing t with
  | nil => simp [scan] at h
  | cons c cands ih =>
    obtain ⟨plan, s, hplan, hs, ⟨-, -, hr⟩ | ⟨-, h⟩⟩ := scan_cons h
    · cases hr
      exact ⟨c, List.mem_cons_self, plan, hplan, hs⟩
    · obtain ⟨c', hmem, hpicked⟩ := ih h
      exact ⟨c', List.mem_cons_of_mem c hmem, hpicked⟩

theorem usedOf_save_self {old : UserSubscription} (h : t.find sub.id = some old) :
    usedOf (t.save sub) sub.id = sub.amountUsed := by
  simp [usedOf, Table.find_save_self h]

theorem usedOf_save_of_ne {id : ℤ} (h : id ≠ sub.id) : usedOf (t.save sub) id = usedOf t id := by
  simp [usedOf, Table.find_save_of_ne h]

/-- Charging a row adds to its quota used and to no other. -/
theorem usedOf_charge (h : t.find sub.id = some sub) (amount id : ℤ) :
    usedOf (t.save { sub with amountUsed := sub.amountUsed + amount }) id =
      usedOf t id + if sub.id = id then amount else 0 := by
  by_cases hid : sub.id = id
  · subst hid
    have hself := Table.find_save_self (r := { sub with amountUsed := sub.amountUsed + amount }) h
    simp only at hself
    simp only [usedOf, hself, h, Option.map_some, Option.getD_some, if_true]
  · have hother := Table.find_save_of_ne (t := t)
      (r := { sub with amountUsed := sub.amountUsed + amount }) (k := id) (Ne.symm hid)
    simp only [usedOf, hother, if_neg hid, add_zero]

/-- **The scan changes the quota used by lazy resets only**: whatever relates each row to the quota
used that a reset of it leaves also relates it to the quota used after the scan. -/
theorem scan_used {t₀ : Table UserSubscription UserSubscription.id} {Q : ℤ → ℤ → Prop}
    (hreset : ∀ c ∈ t₀.rows, ∀ plan sub,
      maybeResetUserSubscriptionWithPlanTx env.fuel env.loc c plan env.now = some sub →
        Q c.id sub.amountUsed) (hkeys : t.rows.map (·.id) = t₀.rows.map (·.id)) (hcands : ∀ c ∈ cands, c ∈ t₀.rows)
    (ht : ∀ id, Q id (usedOf t id)) (h : scan env fits t cands = some (.ok (t', r))) :
    t'.rows.map (·.id) = t₀.rows.map (·.id) ∧ ∀ id, Q id (usedOf t' id) := by
  induction cands generalizing t with
  | nil =>
    simp only [scan, Option.some.injEq, Except.ok.injEq, Prod.mk.injEq] at h
    obtain ⟨rfl, -⟩ := h
    exact ⟨hkeys, ht⟩
  | cons c cands ih =>
    obtain ⟨plan, s, -, hs, hround⟩ := scan_cons h
    have hc : c ∈ t₀.rows := hcands c (by simp)
    have hid : s.id = c.id := maybeReset_id hs
    have hkeys' : (t.save s).rows.map (·.id) = t₀.rows.map (·.id) :=
      (Table.save_keys t s).trans hkeys
    have ht' : ∀ id, Q id (usedOf (t.save s) id) := by
      intro id
      by_cases hne : id = s.id
      · obtain ⟨old, hold, hk⟩ : ∃ old ∈ t.rows, old.id = s.id := by
          have : s.id ∈ t.rows.map (·.id) := hkeys ▸ hid ▸ List.mem_map_of_mem hc
          simpa using this
        rw [hne, usedOf_save_self (hk ▸ Table.find_of_mem hold), hid]
        exact hreset c hc plan s hs
      · rw [usedOf_save_of_ne hne]
        exact ht id
    rcases hround with ⟨-, rfl, -⟩ | ⟨-, h⟩
    · exact ⟨hkeys', ht'⟩
    · exact ih hkeys' (fun c hc' => hcands c (by simp [hc'])) ht' h

variable {plan : SubscriptionPlan}

/-- A lazy reset leaves the quota used of a row as the table has it, or zero. -/
theorem maybeReset_used (hc : c ∈ t.rows)
    (h : maybeResetUserSubscriptionWithPlanTx env.fuel env.loc c plan env.now = some sub) :
    sub.amountUsed = usedOf t c.id ∨ sub.amountUsed = 0 := by
  obtain ⟨_, _, -, hu⟩ := maybeReset_cases h
  rw [usedOf, Table.find_of_mem hc]
  exact hu

/-- What a successful selection scanned. -/
theorem selectFrom_ok (h : selectFrom env db subs modelName usingGroup amount = some (.ok (t, sub))) :
    scan env (candidateFits db subs modelName usingGroup amount) db.subs
      (candidates db subs modelName usingGroup) = some (.ok (t, some sub)) := by
  unfold selectFrom at h
  split at h
  · cases h
  · cases h
  · rename_i hscan
    simp only [Option.some.injEq, Except.ok.injEq, Prod.mk.injEq] at h
    obtain ⟨rfl, rfl⟩ := h
    exact hscan
  · split at h <;> cases h

variable (h : selectSubscription env db userId modelName usingGroup amount = some (.ok (t, sub)))

include h in
theorem selectSubscription_ok :
    ∃ fits cands, (∀ c ∈ cands, c ∈ activeSubscriptions db userId env.now) ∧
      (∀ s, fits s = true → subscriptionFits amount s = true) ∧
      scan env fits db.subs cands = some (.ok (t, some sub)) := by
  unfold selectSubscription at h
  simp only at h
  split at h
  · cases h
  · exact ⟨_, _, fun c => mem_candidates, fun s => candidateFits_room, selectFrom_ok h⟩

theorem mem_activeSubscriptions {now : ℤ} :
    sub ∈ activeSubscriptions db userId now ↔
      sub ∈ db.subs.rows ∧ sub.userId = userId ∧ sub.status = .active ∧ now < sub.endTime := by
  simp [activeSubscriptions, List.mem_insertionSort]

include h in
/-- A selected row is in the table the selection leaves. -/
theorem selectSubscription_find : t.find sub.id = some sub := by
  obtain ⟨fits, cands, hc, _, hscan⟩ := selectSubscription_ok h
  refine scan_find (fun c hmem => ?_) hscan
  exact List.mem_map_of_mem (mem_activeSubscriptions.mp (hc c hmem)).1

theorem checkRequest_none (h : checkRequest ok db requestId userId amount = none) :
    trimSpace requestId ≠ "" ∧ 0 < amount ∧ db.records.find requestId = none := by
  simp only [checkRequest, ite_some_eq_none] at h
  obtain ⟨-, hreq, hpos, -, hfind⟩ := h
  exact ⟨hreq, by omega, Option.map_eq_none_iff.mp hfind⟩

theorem checkRequest_ok {result : SubscriptionPreConsumeResult}
    (h : checkRequest ok db requestId userId amount = some (.ok result)) :
    0 < amount ∧ ∃ existing, db.records.find requestId = some existing ∧ existingResult db existing = .ok result := by
  simp only [checkRequest, ite_some_error_eq] at h
  obtain ⟨-, -, hpos, -, hfind⟩ := h
  exact ⟨by omega, Option.map_eq_some_iff.mp hfind⟩

/-- **A successful pre-consume** either answers for the record that is there and writes nothing,
or charges the selected row and inserts the record. -/
theorem preConsumeUserSubscription_ok {res : SubscriptionPreConsumeResult}
    (h : preConsumeUserSubscription env ok db requestId userId modelName usingGroup amount = some (.ok (db', res))) :
    0 < amount ∧
    ((∃ existing, db.records.find requestId = some existing ∧
        existingResult db existing = .ok res ∧ db' = db) ∨
     (trimSpace requestId ≠ "" ∧ db.records.find requestId = none ∧ ∃ t sub records,
        selectSubscription env db userId modelName usingGroup amount = some (.ok (t, sub)) ∧
        db.records.insert ⟨requestId, userId, sub.id, amount, .consumed⟩ = some records ∧
        db' = { db with subs := t.save { sub with amountUsed := sub.amountUsed + amount }, records } ∧
        res = ⟨sub.id, amount, sub.amountTotal, sub.amountUsed, sub.amountUsed + amount⟩)) := by
  unfold preConsumeUserSubscription at h
  split at h
  · rename_i answer hcheck
    cases answer with
    | error e => cases h
    | ok r =>
      simp only [Except.map, Option.some.injEq, Except.ok.injEq, Prod.mk.injEq] at h
      obtain ⟨rfl, rfl⟩ := h
      obtain ⟨hpos, existing, hfind, hres⟩ := checkRequest_ok hcheck
      exact ⟨hpos, .inl ⟨existing, hfind, hres, rfl⟩⟩
  · rename_i hcheck
    obtain ⟨hreq, hpos, hfind⟩ := checkRequest_none hcheck
    refine ⟨hpos, .inr ⟨hreq, hfind, ?_⟩⟩
    split at h
    · cases h
    · cases h
    · rename_i t sub hsel
      simp only [preConsumeSubscriptionTx, Option.some.injEq] at h
      split at h
      · rename_i records hins
        simp only [Except.ok.injEq, Prod.mk.injEq] at h
        obtain ⟨rfl, rfl⟩ := h
        exact ⟨t, sub, records, hsel, hins, rfl, rfl⟩
      · -- no record was there, so the insert cannot have met a duplicate
        rename_i hins
        exact absurd hfind (Table.insert_eq_none_iff.mp hins)

/-- The quota used after a delta, clamped at zero. -/
def clampedUsed (used delta : ℤ) : ℤ := max 0 (used + delta)

theorem ite_eq_clampedUsed (used delta : ℤ) :
    (if used + delta < 0 then 0 else used + delta) = clampedUsed used delta := by
  unfold clampedUsed
  split <;> omega

/-- **A successful delta** changes nothing, or writes the clamped sum to the row, which then
respects the total. -/
theorem postConsumeUserSubscriptionDelta_ok {id delta : ℤ}
    (h : postConsumeUserSubscriptionDelta ok db id delta = .ok db') :
    (delta = 0 ∧ db' = db) ∨
      ∃ sub, db.subs.find id = some sub ∧
        (0 < sub.amountTotal → clampedUsed sub.amountUsed delta ≤ sub.amountTotal) ∧
        db' = db.saveSub { sub with amountUsed := clampedUsed sub.amountUsed delta } := by
  simp only [postConsumeUserSubscriptionDelta, ite_error_eq_ok, ite_eq_clampedUsed] at h
  replace h := h.2
  split at h
  · rename_i hd
    cases h
    exact .inl ⟨hd, rfl⟩
  split at h
  · cases h
  rename_i sub hfind
  obtain ⟨htotal, h⟩ := ite_error_eq_ok.mp h
  split at h
  · cases h
    exact .inr ⟨sub, hfind, fun hpos => by omega, rfl⟩
  · cases h

/-- A delta whose transaction fails returns an error. -/
theorem postConsumeUserSubscriptionDelta_failed {id delta : ℤ} (hd : delta ≠ 0) :
    postConsumeUserSubscriptionDelta false db id delta ≠ .ok db' := by
  intro h
  unfold postConsumeUserSubscriptionDelta at h
  rw [if_neg hd] at h
  split at h
  · cases h
  split at h
  · cases h
  simp only [ite_eq_clampedUsed, Bool.false_eq_true, if_false] at h
  split at h
  · cases h
  · cases h

variable {isPackage advance : Bool} {planId : ℤ}

theorem adminResetUserSubscriptionsByPlan_ok
    (h : adminResetUserSubscriptionsByPlan env ok db isPackage userId planId advance = .ok db') :
    ∃ plan hit, adminResetTx env ok db plan hit advance = .ok db' := by
  simp only [adminResetUserSubscriptionsByPlan, ite_error_eq_ok] at h
  replace h := h.2
  split at h
  · cases h
  · simp only [ite_error_eq_ok] at h
    exact ⟨_, _, h.2.2⟩

theorem adminResetPlanSubscriptions_ok (h : adminResetPlanSubscriptions env ok db isPackage planId advance = .ok db') :
    ∃ plan hit, adminResetTx env ok db plan hit advance = .ok db' := by
  simp only [adminResetPlanSubscriptions, ite_error_eq_ok] at h
  replace h := h.2
  split at h
  · cases h
  · exact ⟨_, _, (ite_error_eq_ok.mp h).2⟩

/-- Every row after an administrator's reset is a row as it was or a row reset to zero. -/
theorem mem_adminResetTx {hit : UserSubscription → Bool}
    (h : adminResetTx env ok db plan hit advance = .ok db') (hsub : sub ∈ db'.subs.rows) :
    sub ∈ db.subs.rows ∨
      ∃ x ∈ db.subs.rows, sub = resetUserSubscriptionTx env.loc x plan env.now advance := by
  unfold adminResetTx at h
  simp only at h
  split at h
  · cases h
    simp only [Table.mem_updateWhere] at hsub
    obtain ⟨x, hx, rfl⟩ := hsub
    split
    · exact .inr ⟨x, hx, rfl⟩
    · exact .inl hx
  · cases h

end OneApi.Subscription.PreConsume
