import OneApi.Subscription.PreConsume
import Mathlib.Data.Rat.Floor
import Mathlib.Tactic.Positivity

/-!
# The quota pool of an agent plan

A pool holds what is left of an official monthly quota.  A package subscription books a share of
it, and what its user has not used of the package stays reserved: the allocation times the quota
remaining over the total, rounded up.  `CreateAgentPlanPackageAllocation` books an allocation when
the official remainder covers it beside the reservations of all live allocations.

The code computes with `int64` and, for the rounded quotient, with `big.Int`.  The model takes the
`int64` arithmetic as a parameter `w`, the value an operation with the given exact result has: the
code is the model at `wrap64`, and exact arithmetic is the model at `id`
(`createAgentPlanPackageAllocation_exact` says that they agree).
-/

namespace OneApi.AgentPlan.Pool

open OneApi.Lib OneApi.Lib.Go OneApi.Subscription.Model OneApi.Subscription.PreConsume

inductive SyncStatus
  | available
  | error
  deriving Repr, DecidableEq

structure AgentPlanQuotaPool where
  id : ℤ
  sourceChannelId : ℤ
  displayMultiplierMicros : ℤ
  officialMonthlyRemainingAFPMicros : ℤ
  syncedAt : ℤ
  syncStatus : SyncStatus
  deriving Repr, DecidableEq

/-- `scopeModels` is the stored text as the JSON reader sees it, as for an allocation. -/
structure AgentPlanPackagePlan where
  id : ℤ
  subscriptionPlanId : ℤ
  poolId : ℤ
  allocationAFPMicros : ℤ
  scopeGroup : String
  scopeModels : Option (List String)
  allowWalletFallback : Bool
  deriving Repr, DecidableEq

/-- `VerifiedAt` counts nanoseconds; `none` is the zero time. -/
structure AgentPlanQuotaPoolFreshness where
  poolId : ℤ
  syncedAt : ℤ
  verifiedAt : Option ℤ
  deriving Repr, DecidableEq

structure AgentPlanQuotaPoolStock where
  officialMonthlyRemainingAFPMicros : ℤ
  activeReservationAFPMicros : ℤ
  sellableAFPMicros : ℤ
  deriving Repr, DecidableEq

structure AgentPlanPackageAllocationBooking where
  allocation : AgentPlanPackageAllocation
  displayAllocationAFPMicros : ℤ
  stock : AgentPlanQuotaPoolStock
  deriving Repr, DecidableEq

inductive PoolError
  | snapshotStale
  | stockInsufficient
  | allocationInvalid
  | reservationExceedsInt64
  | calculationExceedsInt64
  | lockArguments (row : String)
  | recordNotFound
  | database
  deriving Repr, DecidableEq

/-- The text of each error; the last two are those of the database. -/
def PoolError.message : PoolError → String
  | .snapshotStale => "agent plan quota pool snapshot is stale"
  | .stockInsufficient => "agent plan quota pool stock is insufficient"
  | .allocationInvalid => "agent plan package allocation is invalid"
  | .reservationExceedsInt64 => "agent plan quota pool reservation exceeds int64"
  | .calculationExceedsInt64 => "agent plan AFP calculation exceeds int64"
  | .lockArguments row => s!"invalid {row} lock arguments"
  | .recordNotFound => "record not found"
  | .database => "database error"

/-- The tables a booking works on: subscriptions and allocations, the groups of the users, and
the pools. -/
structure World where
  db : DB
  users : ℤ → Option String
  pools : Table AgentPlanQuotaPool AgentPlanQuotaPool.id

/-! ## Stock -/

def agentPlanMultiplierMicros : ℤ := 1000000

/-- `agentPlanCeilMulDiv`, whose quotient is a `big.Int` until it is returned. -/
def agentPlanCeilMulDiv (left right divisor : ℤ) : Except PoolError ℤ :=
  if left < 0 ∨ right < 0 ∨ divisor ≤ 0 then .error .allocationInvalid
  else
    let product := left * right
    let quotient := product.tdiv divisor
    let remainder := product.tmod divisor
    let rounded := if 0 < remainder then quotient + 1 else quotient
    if InInt64 rounded then .ok rounded else .error .calculationExceedsInt64

/-- `agentPlanSubscriptionCanReserve` at Unix time `now`. -/
def agentPlanSubscriptionCanReserve (sub : UserSubscription) (now : ℤ) : Prop :=
  sub.status = .active ∧ now < sub.endTime ∧ 0 < sub.amountTotal ∧ sub.amountUsed < sub.amountTotal

instance (sub : UserSubscription) (now : ℤ) :
    Decidable (agentPlanSubscriptionCanReserve sub now) :=
  inferInstanceAs (Decidable (_ ∧ _))

def agentPlanAllocationReservation (w : ℤ → ℤ) (allocationAFPMicros : ℤ) (sub : UserSubscription) :
    Except PoolError ℤ :=
  if allocationAFPMicros ≤ 0 then .error .allocationInvalid
  else if sub.amountTotal ≤ 0 then .error .allocationInvalid
  else
    let remaining := w (sub.amountTotal - sub.amountUsed)
    if remaining ≤ 0 then .ok 0
    else agentPlanCeilMulDiv allocationAFPMicros remaining sub.amountTotal

def agentPlanDisplayAFPMicros (allocationAFPMicros multiplierMicros : ℤ) : Except PoolError ℤ :=
  if allocationAFPMicros ≤ 0 ∨ multiplierMicros ≤ 0 then .error .allocationInvalid
  else agentPlanCeilMulDiv allocationAFPMicros multiplierMicros agentPlanMultiplierMicros

/-- The loop of `agentPlanQuotaPoolStockForUpdate` over the allocations of the pool, from the
reservation added up so far. -/
def addReservations (w : ℤ → ℤ) (subs : Table UserSubscription UserSubscription.id) (now : ℤ) :
    ℤ → List AgentPlanPackageAllocation → Except PoolError ℤ
  | active, [] => .ok active
  | active, a :: rest =>
    match subs.find a.userSubscriptionId with
    | none => addReservations w subs now active rest
    | some sub =>
      if agentPlanSubscriptionCanReserve sub now then
        match agentPlanAllocationReservation w a.allocationAFPMicros sub with
        | .error e => .error e
        | .ok reservation =>
          if w (maxInt64 - active) < reservation then .error .reservationExceedsInt64
          else addReservations w subs now (w (active + reservation)) rest
      else addReservations w subs now active rest

/-- `agentPlanQuotaPoolStockForUpdate` at Unix time `now`. -/
def agentPlanQuotaPoolStockForUpdate (w : ℤ → ℤ) (db : DB) (pool : AgentPlanQuotaPool) (now : ℤ) :
    Except PoolError AgentPlanQuotaPoolStock :=
  match addReservations w db.subs now 0 (db.allocations.filter fun a => a.poolId = pool.id) with
  | .error e => .error e
  | .ok active =>
    .ok ⟨pool.officialMonthlyRemainingAFPMicros, active,
      if active < pool.officialMonthlyRemainingAFPMicros then
        w (pool.officialMonthlyRemainingAFPMicros - active)
      else 0⟩

/-! ## Booking -/

structure AgentPlanPackageAllocationRequest where
  packagePlanId : ℤ
  userSubscriptionId : ℤ
  freshness : Option AgentPlanQuotaPoolFreshness
  deriving Repr, DecidableEq

/-- What a booking reads besides the tables: the package plan before and under its lock, and the
source channels, with whether `ValidateAgentPlanQuotaPoolSource` accepts them. -/
structure BookingEnv where
  packagePlan : ℤ → Option AgentPlanPackagePlan
  lockedPackagePlan : ℤ → Option AgentPlanPackagePlan
  channel : ℤ → Option Bool

/-- The pattern of the `Get…ForUpdate` functions: a guard on the id, then the row under its lock. -/
def forUpdate {α : Type} (row : String) (find : ℤ → Option α) (id : ℤ) : Except PoolError α :=
  if id ≤ 0 then .error (.lockArguments row)
  else
    match find id with
    | none => .error .recordNotFound
    | some x => .ok x

def getAgentPlanQuotaPoolForUpdate (world : World) (id : ℤ) : Except PoolError AgentPlanQuotaPool :=
  forUpdate "agent plan quota pool" world.pools.find id

def getChannelByIdForUpdate (env : BookingEnv) (id : ℤ) : Except PoolError Bool :=
  forUpdate "channel" env.channel id

def getAgentPlanPackagePlanForUpdate (env : BookingEnv) (id : ℤ) : Except PoolError AgentPlanPackagePlan :=
  forUpdate "agent plan package plan" env.lockedPackagePlan id

def getUserSubscriptionForUpdate (world : World) (id : ℤ) : Except PoolError UserSubscription :=
  forUpdate "user subscription" world.db.subs.find id

/-- Nanoseconds in a second, and the `agentPlanQuotaPoolSnapshotMaxAge` of one minute. -/
def nanos : ℤ := 1000000000

def agentPlanQuotaPoolSnapshotMaxAge : ℤ := 60 * nanos

/-- `now.Unix()` of a time in nanoseconds. -/
def unixOf (now : ℤ) : ℤ := now / nanos

/-- `agentPlanQuotaPoolSnapshotFresh`, with `now` in nanoseconds. -/
def agentPlanQuotaPoolSnapshotFresh (pool : AgentPlanQuotaPool) (now : ℤ) : Prop :=
  pool.syncStatus = .available ∧ 0 < pool.syncedAt ∧ pool.syncedAt * nanos ≤ now ∧
    now - pool.syncedAt * nanos < agentPlanQuotaPoolSnapshotMaxAge

instance (pool : AgentPlanQuotaPool) (now : ℤ) :
    Decidable (agentPlanQuotaPoolSnapshotFresh pool now) :=
  inferInstanceAs (Decidable (_ ∧ _))

/-- The checks of a booking under its locks: the pool, the package plan and the subscription. -/
def checkBooking (env : BookingEnv) (world : World) (req : AgentPlanPackageAllocationRequest)
    (poolId syncedAt verifiedAt : ℤ) :
    Except PoolError (AgentPlanQuotaPool × AgentPlanPackagePlan × UserSubscription) :=
  match getAgentPlanQuotaPoolForUpdate world poolId with
  | .error e => .error e
  | .ok pool =>
    if pool.syncedAt < syncedAt ∨ ¬ agentPlanQuotaPoolSnapshotFresh pool verifiedAt then
      .error .snapshotStale
    else
      match getChannelByIdForUpdate env pool.sourceChannelId with
      | .error e => .error e
      | .ok false => .error .allocationInvalid
      | .ok true =>
        match getAgentPlanPackagePlanForUpdate env req.packagePlanId with
        | .error e => .error e
        | .ok plan =>
          if plan.poolId ≠ pool.id ∨ plan.allocationAFPMicros ≤ 0 then
            .error .allocationInvalid
          else if pool.displayMultiplierMicros ≤ 0 then .error .allocationInvalid
          else
            match getUserSubscriptionForUpdate world req.userSubscriptionId with
            | .error e => .error e
            | .ok sub =>
              if sub.planId ≠ plan.subscriptionPlanId ∨
                  ¬ agentPlanSubscriptionCanReserve sub (unixOf verifiedAt) then
                .error .allocationInvalid
              else .ok (pool, plan, sub)

/-- The allocation a booking writes. -/
def newAllocation (pool : AgentPlanQuotaPool) (plan : AgentPlanPackagePlan)
    (sub : UserSubscription) : AgentPlanPackageAllocation where
  userSubscriptionId := sub.id
  poolId := pool.id
  allocationAFPMicros := plan.allocationAFPMicros
  displayMultiplierMicros := pool.displayMultiplierMicros
  scopeGroup := plan.scopeGroup
  scopeModels := plan.scopeModels
  allowWalletFallback := plan.allowWalletFallback

def World.addAllocation (world : World) (a : AgentPlanPackageAllocation) : World :=
  { world with db := { world.db with allocations := world.db.allocations ++ [a] } }

/-- The answer of a booking: the stock as it is then, and the allocation as users see it. -/
def bookingOf (w : ℤ → ℤ) (world : World) (pool : AgentPlanQuotaPool)
    (allocation : AgentPlanPackageAllocation) (now : ℤ) :
    Except PoolError (World × AgentPlanPackageAllocationBooking) :=
  match agentPlanQuotaPoolStockForUpdate w world.db pool now with
  | .error e => .error e
  | .ok stock =>
    match agentPlanDisplayAFPMicros allocation.allocationAFPMicros allocation.displayMultiplierMicros with
    | .error e => .error e
    | .ok display => .ok (world, ⟨allocation, display, stock⟩)

/-- The rest of the transaction: an allocation that exists is returned, otherwise one is written
if the stock covers it.  The index on the subscription refuses a second one. -/
def bookAllocation (w : ℤ → ℤ) (world : World) (pool : AgentPlanQuotaPool)
    (plan : AgentPlanPackagePlan) (sub : UserSubscription) (now : ℤ) :
    Except PoolError (World × AgentPlanPackageAllocationBooking) :=
  match world.db.allocations.find? fun a => a.userSubscriptionId = sub.id ∧ a.poolId = pool.id with
  | some existing => bookingOf w world pool existing now
  | none =>
    match agentPlanQuotaPoolStockForUpdate w world.db pool now with
    | .error e => .error e
    | .ok stock =>
      match agentPlanAllocationReservation w plan.allocationAFPMicros sub with
      | .error e => .error e
      | .ok reservation =>
        if stock.sellableAFPMicros < reservation then .error .stockInsufficient
        else if world.db.allocations.any fun a => a.userSubscriptionId = sub.id then
          .error .database
        else
          let allocation := newAllocation pool plan sub
          bookingOf w (world.addAllocation allocation) pool allocation now

/-- `CreateAgentPlanPackageAllocation`.  Inside a transaction the caller brings the freshness
record; outside one it is what `PrepareAgentPlanQuotaPoolAllocation` returns, after a sync of the
pool if that was due. -/
def createAgentPlanPackageAllocation (w : ℤ → ℤ) (env : BookingEnv) (world : World)
    (req : AgentPlanPackageAllocationRequest) : Except PoolError (World × AgentPlanPackageAllocationBooking) :=
  if req.packagePlanId ≤ 0 ∨ req.userSubscriptionId ≤ 0 then .error .allocationInvalid
  else
    match env.packagePlan req.packagePlanId with
    | none => .error .recordNotFound
    | some packagePlan =>
      match req.freshness with
      | none => .error .allocationInvalid
      | some freshness =>
        match freshness.verifiedAt with
        | none => .error .allocationInvalid
        | some verifiedAt =>
          if freshness.poolId ≠ packagePlan.poolId ∨ freshness.syncedAt ≤ 0 then
            .error .allocationInvalid
          else
            match checkBooking env world req packagePlan.poolId freshness.syncedAt verifiedAt with
            | .error e => .error e
            | .ok (pool, plan, sub) =>
              bookAllocation w world pool plan sub (unixOf verifiedAt)

/-! ## Reservations as numbers -/

/-- What an allocation reserves for a subscription: the allocation times the quota remaining over
the total, rounded up. -/
def reservedShare (allocationAFPMicros : ℤ) (sub : UserSubscription) : ℤ :=
  ⌈((allocationAFPMicros * (sub.amountTotal - sub.amountUsed) : ℤ) : ℚ) / (sub.amountTotal : ℚ)⌉

/-- What an allocation reserves at a time: nothing, when its subscription is not live then. -/
def liveReservation (subs : Table UserSubscription UserSubscription.id) (now : ℤ)
    (a : AgentPlanPackageAllocation) : ℤ :=
  match subs.find a.userSubscriptionId with
  | none => 0
  | some sub =>
    if agentPlanSubscriptionCanReserve sub now then reservedShare a.allocationAFPMicros sub else 0

/-- What the live allocations of a pool reserve together. -/
def reservedAFPMicros (db : DB) (poolId now : ℤ) : ℤ :=
  ((db.allocations.filter fun a => a.poolId = poolId).map (liveReservation db.subs now)).sum

/-- The `big.Int` quotient, raised when there is a remainder, is the rounded up quotient. -/
theorem ceil_div_eq {p d : ℤ} (hp : 0 ≤ p) (hd : 0 < d) :
    (if 0 < p.tmod d then p.tdiv d + 1 else p.tdiv d) = ⌈(p : ℚ) / (d : ℚ)⌉ := by
  have hd' : (0 : ℚ) < d := by exact_mod_cast hd
  have hsplit : d * p.tdiv d + p.tmod d = p := Int.mul_tdiv_add_tmod p d
  have hnonneg : 0 ≤ p.tmod d := Int.tmod_nonneg d hp
  have hlt : p.tmod d < d := Int.tmod_lt_of_pos p hd
  symm
  rw [Int.ceil_eq_iff, lt_div_iff₀ hd', div_le_iff₀ hd']
  split
  · exact ⟨by exact_mod_cast (by linarith : (p.tdiv d + 1 - 1) * d < p),
      by exact_mod_cast (by linarith : p ≤ (p.tdiv d + 1) * d)⟩
  · exact ⟨by exact_mod_cast (by linarith : (p.tdiv d - 1) * d < p), by exact_mod_cast (by linarith : p ≤ p.tdiv d * d)⟩

theorem agentPlanCeilMulDiv_ok {left right divisor q : ℤ} (h : agentPlanCeilMulDiv left right divisor = .ok q) :
    q = ⌈((left * right : ℤ) : ℚ) / (divisor : ℚ)⌉ ∧ InInt64 q ∧ 0 ≤ q := by
  unfold agentPlanCeilMulDiv at h
  split at h
  · cases h
  rename_i hargs
  simp only at h
  generalize hround : (if 0 < (left * right).tmod divisor then _ else _) = rounded at h
  split at h
  · rename_i hrange
    cases h
    subst hround
    have hprod : 0 ≤ left * right := mul_nonneg (by omega) (by omega)
    have hdiv : 0 < divisor := by omega
    refine ⟨ceil_div_eq hprod hdiv, hrange, ?_⟩
    have hq : 0 ≤ (left * right).tdiv divisor := Int.tdiv_nonneg hprod hdiv.le
    split <;> omega
  · cases h

variable {now : ℤ} {sub : UserSubscription}

/-- The share of a live subscription is what the code computes for it, and it is positive. -/
theorem reservation_ok {allocation r : ℤ} (hlive : agentPlanSubscriptionCanReserve sub now)
    (h : agentPlanAllocationReservation id allocation sub = .ok r) :
    r = reservedShare allocation sub ∧ InInt64 r ∧ 0 < r := by
  obtain ⟨_, _, htotal, hused⟩ := hlive
  unfold agentPlanAllocationReservation at h
  split at h
  · cases h
  rename_i hpos
  rw [if_neg (show ¬ sub.amountTotal ≤ 0 by omega)] at h
  simp only [id] at h
  rw [if_neg (show ¬ sub.amountTotal - sub.amountUsed ≤ 0 by omega)] at h
  obtain ⟨hq, hrange, _⟩ := agentPlanCeilMulDiv_ok h
  refine ⟨hq, hrange, ?_⟩
  rw [hq, Int.ceil_pos]
  have hprod : 0 < allocation * (sub.amountTotal - sub.amountUsed) :=
    mul_pos (by omega) (by omega)
  have hprod' : (0 : ℚ) < ((allocation * (sub.amountTotal - sub.amountUsed) : ℤ) : ℚ) := by
    exact_mod_cast hprod
  have htotal' : (0 : ℚ) < (sub.amountTotal : ℚ) := by exact_mod_cast htotal
  positivity

variable {subs : Table UserSubscription UserSubscription.id}

theorem liveReservation_le {t : ℤ}
    {a : AgentPlanPackageAllocation} (ht : now ≤ t) (hpos : 0 ≤ liveReservation subs now a) :
    liveReservation subs t a ≤ liveReservation subs now a := by
  unfold liveReservation at hpos ⊢
  cases hfind : subs.find a.userSubscriptionId with
  | none => exact le_refl _
  | some sub =>
    rw [hfind] at hpos
    simp only at hpos ⊢
    by_cases hlive : agentPlanSubscriptionCanReserve sub t
    · have hnow : agentPlanSubscriptionCanReserve sub now :=
        ⟨hlive.1, ht.trans_lt hlive.2.1, hlive.2.2⟩
      rw [if_pos hlive, if_pos hnow]
    · rw [if_neg hlive]
      exact hpos

variable {active : ℤ} {allocations : List AgentPlanPackageAllocation}

/-- **The loop over the allocations adds up what the live ones reserve.**  What they reserve at a
later time is at most that, since subscriptions only end. -/
theorem addReservations_ok {total : ℤ} (h : addReservations id subs now active allocations = .ok total) :
    total = active + (allocations.map (liveReservation subs now)).sum ∧
      ∀ a ∈ allocations, 0 ≤ liveReservation subs now a := by
  induction allocations generalizing active with
  | nil =>
    cases h
    exact ⟨by simp, by simp⟩
  | cons a rest ih =>
    rw [addReservations] at h
    rw [List.map_cons, List.sum_cons, List.forall_mem_cons]
    cases hfind : subs.find a.userSubscriptionId with
    | none =>
      rw [hfind] at h
      have hzero : liveReservation subs now a = 0 := by unfold liveReservation; rw [hfind]
      obtain ⟨htotal, hpos⟩ := ih h
      exact ⟨by rw [htotal, hzero, zero_add], by rw [hzero], hpos⟩
    | some sub =>
      rw [hfind] at h
      simp only at h
      by_cases hlive : agentPlanSubscriptionCanReserve sub now
      · rw [if_pos hlive] at h
        split at h
        · cases h
        rename_i r hr
        split at h
        · cases h
        obtain ⟨hshare, _, hrpos⟩ := reservation_ok hlive hr
        have hreserved : liveReservation subs now a = r := by
          unfold liveReservation
          rw [hfind, hshare]
          exact if_pos hlive
        obtain ⟨htotal, hpos⟩ := ih h
        exact ⟨by rw [htotal, hreserved, id, add_assoc], by rw [hreserved]; exact hrpos.le, hpos⟩
      · rw [if_neg hlive] at h
        have hzero : liveReservation subs now a = 0 := by
          unfold liveReservation
          rw [hfind]
          exact if_neg hlive
        obtain ⟨htotal, hpos⟩ := ih h
        exact ⟨by rw [htotal, hzero, zero_add], by rw [hzero], hpos⟩

variable {pool : AgentPlanQuotaPool}

/-- **The stock** sets what the live allocations reserve against the official remainder. -/
theorem stock_ok {db : DB} {stock : AgentPlanQuotaPoolStock}
    (h : agentPlanQuotaPoolStockForUpdate id db pool now = .ok stock) :
    stock.activeReservationAFPMicros = reservedAFPMicros db pool.id now ∧
      stock.sellableAFPMicros = max 0 (pool.officialMonthlyRemainingAFPMicros - reservedAFPMicros db pool.id now) ∧
      ∀ t, now ≤ t → reservedAFPMicros db pool.id t ≤ reservedAFPMicros db pool.id now := by
  unfold agentPlanQuotaPoolStockForUpdate at h
  split at h
  · cases h
  rename_i active hactive
  obtain ⟨htotal, hpos⟩ := addReservations_ok hactive
  rw [zero_add] at htotal
  cases h
  refine ⟨htotal, ?_, fun t ht => List.sum_le_sum fun a ha => liveReservation_le ht (hpos a ha)⟩
  show (if active < pool.officialMonthlyRemainingAFPMicros then _ else _) = _
  rw [show reservedAFPMicros db pool.id now = active from htotal.symm]
  split
  · rw [id, max_eq_right (by omega)]
  · rw [max_eq_left (by omega)]

/-! ## No overflow -/

/-- What keeps the arithmetic in range: no quota used is negative or above its total, and totals and
remainders are `int64` values. -/
structure InRange (world : World) : Prop where
  bounded : ∀ sub ∈ world.db.subs.rows, 0 ≤ sub.amountUsed ∧ (0 < sub.amountTotal → sub.amountUsed ≤ sub.amountTotal)
  total : ∀ sub ∈ world.db.subs.rows, sub.amountTotal ≤ maxInt64
  official : ∀ pool ∈ world.pools.rows, pool.officialMonthlyRemainingAFPMicros ≤ maxInt64

theorem inInt64_of_bounds {x : ℤ} (h₀ : 0 ≤ x) (h₁ : x ≤ maxInt64) : InInt64 x :=
  ⟨by omega, h₁⟩

theorem reservation_exact {allocation : ℤ}
    (hb : 0 ≤ sub.amountUsed ∧ (0 < sub.amountTotal → sub.amountUsed ≤ sub.amountTotal))
    (ht : sub.amountTotal ≤ maxInt64) :
    agentPlanAllocationReservation wrap64 allocation sub = agentPlanAllocationReservation id allocation sub := by
  unfold agentPlanAllocationReservation
  by_cases htotal : sub.amountTotal ≤ 0
  · simp only [if_pos htotal]
  · have hle := hb.2 (by omega)
    rw [show wrap64 (sub.amountTotal - sub.amountUsed) = id (sub.amountTotal - sub.amountUsed) from
      wrap64_eq_self (inInt64_of_bounds (by omega) (by omega))]

variable {world : World}

theorem addReservations_exact (hw : InRange world) (h₀ : 0 ≤ active) (h₁ : active ≤ maxInt64) :
    addReservations wrap64 world.db.subs now active allocations =
      addReservations id world.db.subs now active allocations := by
  induction allocations generalizing active with
  | nil => rfl
  | cons a rest ih =>
    rw [addReservations, addReservations]
    cases hfind : world.db.subs.find a.userSubscriptionId with
    | none => exact ih h₀ h₁
    | some sub =>
      simp only
      by_cases hlive : agentPlanSubscriptionCanReserve sub now
      · have hmem := Table.find_mem hfind
        rw [if_pos hlive, if_pos hlive, reservation_exact (hw.bounded sub hmem) (hw.total sub hmem)]
        cases hr : agentPlanAllocationReservation id a.allocationAFPMicros sub with
        | error e => rfl
        | ok r =>
          obtain ⟨_, _, hrpos⟩ := reservation_ok hlive hr
          simp only
          rw [show wrap64 (maxInt64 - active) = id (maxInt64 - active) from
            wrap64_eq_self (inInt64_of_bounds (by omega) (by omega))]
          by_cases hover : id (maxInt64 - active) < r
          · rw [if_pos hover, if_pos hover]
          · rw [if_neg hover, if_neg hover]
            rw [id] at hover
            rw [show wrap64 (active + r) = id (active + r) from
              wrap64_eq_self (inInt64_of_bounds (by omega) (by omega))]
            exact ih (show 0 ≤ id (active + r) by rw [id]; omega) (show id (active + r) ≤ maxInt64 by rw [id]; omega)
      · rw [if_neg hlive, if_neg hlive]
        exact ih h₀ h₁

theorem addReservations_nonneg {total : ℤ} (h₀ : 0 ≤ active)
    (h : addReservations id subs now active allocations = .ok total) : 0 ≤ total := by
  obtain ⟨htotal, hpos⟩ := addReservations_ok h
  have hsum : 0 ≤ (allocations.map (liveReservation subs now)).sum :=
    List.sum_nonneg fun x hx => by
      obtain ⟨a, ha, rfl⟩ := List.mem_map.mp hx
      exact hpos a ha
  omega

theorem stock_exact (hw : InRange world) (hpool : pool.officialMonthlyRemainingAFPMicros ≤ maxInt64) :
    agentPlanQuotaPoolStockForUpdate wrap64 world.db pool now =
      agentPlanQuotaPoolStockForUpdate id world.db pool now := by
  unfold agentPlanQuotaPoolStockForUpdate
  rw [addReservations_exact hw (le_refl 0) (by decide)]
  cases hactive : addReservations id world.db.subs now 0 (world.db.allocations.filter fun a => a.poolId = pool.id) with
  | error e => rfl
  | ok active =>
    have hpos := addReservations_nonneg (le_refl 0) hactive
    simp only
    by_cases hlt : active < pool.officialMonthlyRemainingAFPMicros
    · rw [if_pos hlt, if_pos hlt, show wrap64 (pool.officialMonthlyRemainingAFPMicros - active) =
        id (pool.officialMonthlyRemainingAFPMicros - active) from
        wrap64_eq_self (inInt64_of_bounds (by omega) (by omega))]
    · rw [if_neg hlt, if_neg hlt]

theorem bookingOf_exact (hw : InRange world) (hpool : pool.officialMonthlyRemainingAFPMicros ≤ maxInt64)
    (allocation : AgentPlanPackageAllocation) :
    bookingOf wrap64 world pool allocation now = bookingOf id world pool allocation now := by
  unfold bookingOf
  rw [stock_exact hw hpool]

theorem forUpdate_ok {α : Type} {row : String} {find : ℤ → Option α} {id : ℤ} {x : α}
    (h : forUpdate row find id = .ok x) : 0 < id ∧ find id = some x := by
  unfold forUpdate at h
  split at h
  · cases h
  rename_i hid
  split at h
  · cases h
  · rename_i y hy
    cases h
    exact ⟨by omega, hy⟩

variable {plan : AgentPlanPackagePlan}

/-- What a booking has checked before it looks at the stock. -/
theorem checkBooking_ok {env : BookingEnv} {req : AgentPlanPackageAllocationRequest} {poolId syncedAt verifiedAt : ℤ}
    (h : checkBooking env world req poolId syncedAt verifiedAt = .ok (pool, plan, sub)) :
    world.pools.find poolId = some pool ∧ plan.poolId = pool.id ∧ 0 < plan.allocationAFPMicros ∧
      world.db.subs.find req.userSubscriptionId = some sub ∧
      agentPlanSubscriptionCanReserve sub (unixOf verifiedAt) := by
  unfold checkBooking at h
  split at h
  · cases h
  rename_i pool' hpool
  split at h
  · cases h
  split at h
  · cases h
  · cases h
  split at h
  · cases h
  rename_i plan' _
  split at h
  · cases h
  rename_i hplan
  split at h
  · cases h
  split at h
  · cases h
  rename_i sub' hsub
  split at h
  · cases h
  rename_i hlive
  cases h
  rw [not_or, not_not] at hplan hlive
  exact ⟨(forUpdate_ok hpool).2, hplan.1, by omega, (forUpdate_ok hsub).2, not_not.mp hlive.2⟩

/-- **No computation of a booking overflows**: with `int64` arithmetic it answers and does what it
would with exact numbers. -/
theorem createAgentPlanPackageAllocation_exact (hw : InRange world)
    (env : BookingEnv) (req : AgentPlanPackageAllocationRequest) :
    createAgentPlanPackageAllocation wrap64 env world req = createAgentPlanPackageAllocation id env world req := by
  unfold createAgentPlanPackageAllocation
  split
  · rfl
  split
  · rfl
  split
  · rfl
  split
  · rfl
  split
  · rfl
  split
  · rfl
  rename_i pool plan sub hcheck
  obtain ⟨hpool, _, _, hsub, _⟩ := checkBooking_ok hcheck
  have hofficial := hw.official pool (Table.find_mem hpool)
  have hmem := Table.find_mem hsub
  unfold bookAllocation
  rw [stock_exact hw hofficial, reservation_exact (hw.bounded sub hmem) (hw.total sub hmem)]
  simp only [bookingOf_exact hw hofficial]
  split
  · rfl
  split
  · rfl
  split
  · rfl
  split
  · rfl
  split
  · rfl
  · have hadd : InRange (world.addAllocation (newAllocation pool plan sub)) :=
      ⟨hw.bounded, hw.total, hw.official⟩
    exact bookingOf_exact hadd hofficial _

/-! ## What a booking does -/

variable {booking : AgentPlanPackageAllocationBooking}

theorem bookingOf_ok {w : ℤ → ℤ} {world' : World} {allocation : AgentPlanPackageAllocation}
    (h : bookingOf w world pool allocation now = .ok (world', booking)) :
    world' = world ∧ booking.allocation = allocation := by
  unfold bookingOf at h
  split at h
  · cases h
  split at h
  · cases h
  · cases h
    exact ⟨rfl, rfl⟩

/-- A new allocation adds its own share to what its pool reserves, and nothing elsewhere. -/
theorem reservedAFPMicros_addAllocation (world : World) (a : AgentPlanPackageAllocation) (now : ℤ) :
    reservedAFPMicros (world.addAllocation a).db a.poolId now =
      reservedAFPMicros world.db a.poolId now + liveReservation world.db.subs now a := by
  unfold reservedAFPMicros World.addAllocation
  rw [List.filter_append, List.map_append, List.sum_append]
  simp

/-- **A booking**, with exact arithmetic: the subscription has an allocation of the pool already
and nothing changes, or it has none at all and gets one that the official remainder covers, at the
time of the booking and ever after. -/
theorem bookAllocation_ok {world' : World} (hsub : world.db.subs.find sub.id = some sub)
    (hlive : agentPlanSubscriptionCanReserve sub now)
    (h : bookAllocation id world pool plan sub now = .ok (world', booking)) :
    ((∃ a ∈ world.db.allocations, a.userSubscriptionId = sub.id) ∧ world' = world) ∨
      ((∀ a ∈ world.db.allocations, a.userSubscriptionId ≠ sub.id) ∧
        booking.allocation = newAllocation pool plan sub ∧
        world' = world.addAllocation (newAllocation pool plan sub) ∧
        ∀ t, now ≤ t → reservedAFPMicros world'.db pool.id t ≤
          pool.officialMonthlyRemainingAFPMicros) := by
  unfold bookAllocation at h
  split at h
  · rename_i existing hexisting
    have hkey := List.find?_some hexisting
    simp only [decide_eq_true_eq] at hkey
    exact .inl ⟨⟨existing, List.mem_of_find?_eq_some hexisting, hkey.1⟩, (bookingOf_ok h).1⟩
  split at h
  · cases h
  rename_i stock hstock
  split at h
  · cases h
  rename_i r hr
  split at h
  · cases h
  rename_i hcovered
  split at h
  · cases h
  rename_i hfresh
  obtain ⟨rfl, hbooked⟩ := bookingOf_ok h
  have hnone : ∀ a ∈ world.db.allocations, a.userSubscriptionId ≠ sub.id := by
    simpa using hfresh
  refine .inr ⟨hnone, hbooked, rfl, ?_⟩
  intro t ht
  obtain ⟨_, hsellable, hlater⟩ := stock_ok hstock
  obtain ⟨hshare, _, hrpos⟩ := reservation_ok hlive hr
  have hnew : liveReservation world.db.subs now (newAllocation pool plan sub) = r := by
    unfold liveReservation
    rw [show world.db.subs.find (newAllocation pool plan sub).userSubscriptionId = some sub from hsub, hshare]
    exact if_pos hlive
  have hadd := reservedAFPMicros_addAllocation world (newAllocation pool plan sub) t
  have hnewt := liveReservation_le ht (show 0 ≤ liveReservation world.db.subs now
    (newAllocation pool plan sub) by rw [hnew]; exact hrpos.le)
  rw [show (newAllocation pool plan sub).poolId = pool.id from rfl] at hadd
  rw [hadd]
  have hbefore := hlater t ht
  omega

end OneApi.AgentPlan.Pool
