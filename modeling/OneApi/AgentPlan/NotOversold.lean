import OneApi.AgentPlan.Pool
import OneApi.Subscription.Lifecycle
import OneApi.Subscription.QuotaBound

/-!
# A pool is not oversold

Bookings, syncs of a pool with the official quota, everything that writes the quota used of a
subscription, and expiries, in any order.  The lock on the pool row, taken first, and the locks on
the allocations and their subscriptions make a booking one step.

A booking that writes an allocation leaves the live allocations of its pool covered by the official
remainder (`pool_not_oversold`).  A booking of a subscription that has its allocation already only
returns it: the stock is reported and not checked, and by then a sync may have lowered the official
remainder (`rebooked_while_oversold`).
-/

namespace OneApi.AgentPlan.NotOversold

open OneApi.Lib OneApi.Lib.Go OneApi.Lib.Run OneApi.Subscription.Model
open OneApi.Subscription.PreConsume OneApi.Subscription OneApi.AgentPlan.Pool

/-- What happens to the tables.  A sync that succeeds brings the official monthly remainder and the
time it was read; one that fails is noted in the pool. -/
inductive Step
  | book (env : BookingEnv) (req : AgentPlanPackageAllocationRequest)
  | consume (tx : QuotaBound.Transaction)
  | expire (now userId : ℤ)
  | sync (poolId : ℤ) (usage : Option (ℤ × ℤ))

/-- `SyncAgentPlanQuotaPool` on the pool row.  The remainder has come through
`agentPlanUsageAFPMicros`, which refuses values that are negative or no `int64`. -/
def syncPool (pool : AgentPlanQuotaPool) : Option (ℤ × ℤ) → AgentPlanQuotaPool
  | none => { pool with syncStatus := .error }
  | some (monthlyMicros, updatedAt) =>
    if updatedAt ≤ 0 ∨ monthlyMicros < 0 ∨ maxInt64 < monthlyMicros then
      { pool with syncStatus := .error }
    else
      { pool with officialMonthlyRemainingAFPMicros := monthlyMicros, syncedAt := updatedAt,
                  syncStatus := .available }

/-- The tables after a step; a booking that fails is rolled back. -/
def step (world : World) : Step → World
  | .book env req =>
    match createAgentPlanPackageAllocation wrap64 env world req with
    | .ok (world', _) => world'
    | .error _ => world
  | .consume tx => { world with db := QuotaBound.apply world.db tx }
  | .expire now userId =>
    let st := (Lifecycle.expireUserTx now ⟨world.db.subs, world.users⟩ userId).1
    { world with db := { world.db with subs := st.subs }, users := st.users }
  | .sync poolId usage =>
    match world.pools.find poolId with
    | none => world
    | some pool => { world with pools := world.pools.save (syncPool pool usage) }

/-- What every step keeps: the arithmetic stays in range, and no subscription has two
allocations. -/
structure WellFormed (world : World) : Prop where
  inRange : InRange world
  unique : (world.db.allocations.map (·.userSubscriptionId)).Nodup

/-! ## One step -/

/-- **A successful booking** of a subscription: booked again, nothing changes; booked for the
first time, its allocation is added and the pool covers all that are live. -/
theorem create_ok {env : BookingEnv} {world world' : World}
    {req : AgentPlanPackageAllocationRequest} {booking : AgentPlanPackageAllocationBooking}
    (h : createAgentPlanPackageAllocation id env world req = .ok (world', booking)) :
    ((∃ a ∈ world.db.allocations, a.userSubscriptionId = req.userSubscriptionId) ∧
        world' = world) ∨
      ((∀ a ∈ world.db.allocations, a.userSubscriptionId ≠ req.userSubscriptionId) ∧
        booking.allocation.userSubscriptionId = req.userSubscriptionId ∧
        world' = world.addAllocation booking.allocation ∧
        ∃ freshness verifiedAt pool, req.freshness = some freshness ∧
          freshness.verifiedAt = some verifiedAt ∧
          world.pools.find booking.allocation.poolId = some pool ∧
          ∀ t, unixOf verifiedAt ≤ t →
            reservedAFPMicros world'.db booking.allocation.poolId t ≤
              pool.officialMonthlyRemainingAFPMicros) := by
  unfold createAgentPlanPackageAllocation at h
  split at h
  · cases h
  split at h
  · cases h
  split at h
  · cases h
  rename_i freshness hfreshness
  split at h
  · cases h
  rename_i verifiedAt hverified
  split at h
  · cases h
  split at h
  · cases h
  rename_i pool plan sub hcheck
  obtain ⟨hpool, _, _, hsub, hlive⟩ := checkBooking_ok hcheck
  have hid : sub.id = req.userSubscriptionId := Table.find_key hsub
  obtain ⟨hbooked, rfl⟩ | ⟨hnone, hallocation, rfl, hcovered⟩ :=
    bookAllocation_ok (hid ▸ hsub) hlive h
  · exact .inl ⟨hid ▸ hbooked, rfl⟩
  · rw [← hallocation] at hcovered ⊢
    have hpoolId : booking.allocation.poolId = pool.id := by rw [hallocation]; rfl
    refine .inr ⟨hid ▸ hnone, by rw [hallocation]; exact hid, rfl, freshness, verifiedAt, pool,
      hfreshness, hverified, ?_, ?_⟩
    · rw [hpoolId]
      exact (Table.find_key hpool) ▸ hpool
    · rw [hpoolId]
      exact hcovered

theorem inRange_expire {world : World} (hw : InRange world) (now userId : ℤ) :
    InRange (step world (.expire now userId)) := by
  have hrow : ∀ s ∈ (step world (.expire now userId)).db.subs.rows, ∃ x ∈ world.db.subs.rows,
      s.amountUsed = x.amountUsed ∧ s.amountTotal = x.amountTotal := by
    intro s hs
    rw [show (step world (.expire now userId)).db.subs.rows = _ from
      Lifecycle.expireUserTx_rows] at hs
    obtain ⟨x, hx, rfl⟩ := List.mem_map.mp hs
    refine ⟨x, hx, ?_⟩
    split <;> exact ⟨rfl, rfl⟩
  refine ⟨?_, ?_, hw.official⟩
  · intro s hs
    obtain ⟨x, hx, hused, htotal⟩ := hrow s hs
    rw [hused, htotal]
    exact hw.bounded x hx
  · intro s hs
    obtain ⟨x, hx, _, htotal⟩ := hrow s hs
    rw [htotal]
    exact hw.total x hx

theorem syncPool_official {pool : AgentPlanQuotaPool} (usage : Option (ℤ × ℤ))
    (h : pool.officialMonthlyRemainingAFPMicros ≤ maxInt64) :
    (syncPool pool usage).officialMonthlyRemainingAFPMicros ≤ maxInt64 := by
  unfold syncPool
  split
  · exact h
  · split
    · exact h
    · rename_i hguard
      rw [not_or, not_or] at hguard
      exact not_lt.mp hguard.2.2

/-- **Step lemma.** -/
theorem wellFormed_step (world : World) (s : Step) (hw : WellFormed world) : WellFormed (step world s) := by
  cases s with
  | book env req =>
    simp only [step]
    split
    · rename_i world' booking h
      rw [createAgentPlanPackageAllocation_exact hw.inRange] at h
      obtain ⟨_, rfl⟩ | ⟨hnone, hid, rfl, _⟩ := create_ok h
      · exact hw
      · refine ⟨⟨hw.inRange.bounded, hw.inRange.total, hw.inRange.official⟩, ?_⟩
        unfold World.addAllocation
        rw [List.map_append, List.nodup_append]
        refine ⟨hw.unique, List.nodup_singleton _, ?_⟩
        intro x hx y hy
        obtain ⟨a, ha, rfl⟩ := List.mem_map.mp hx
        rw [List.mem_singleton.mp hy]
        show a.userSubscriptionId ≠ booking.allocation.userSubscriptionId
        rw [hid]
        exact hnone a ha
    · exact hw
  | consume tx =>
    refine ⟨⟨?_, ?_, hw.inRange.official⟩, ?_⟩
    · exact (QuotaBound.keeps_apply tx).rows QuotaBound.bounded_invariant hw.inRange.bounded
    · exact (QuotaBound.keeps_apply tx).rows (QuotaBound.total_invariant (· ≤ maxInt64)) hw.inRange.total
    · rw [show (step world (.consume tx)).db.allocations = _ from
        (QuotaBound.keeps_apply tx).allocations]
      exact hw.unique
  | expire now userId => exact ⟨inRange_expire hw.inRange now userId, hw.unique⟩
  | sync poolId usage =>
    simp only [step]
    split
    · exact hw
    · rename_i pool hpool
      refine ⟨⟨hw.inRange.bounded, hw.inRange.total, ?_⟩, hw.unique⟩
      exact Table.forall_save hw.inRange.official
        (syncPool_official usage (hw.inRange.official pool (Table.find_mem hpool)))

/-! ## Every run -/

/-- **A pool is not oversold.**  After any steps from tables in range, no subscription has two
allocations; a further booking computes without overflow; if it succeeds for a subscription that
has an allocation it changes nothing, and otherwise it adds one allocation, and from the time of
the booking on the live allocations of the pool reserve no more than its official remainder. -/
theorem pool_not_oversold (world : World) (steps : List Step) (hw : WellFormed world)
    (env : BookingEnv) (req : AgentPlanPackageAllocationRequest) :
    ((run step world steps).db.allocations.map (·.userSubscriptionId)).Nodup ∧
    createAgentPlanPackageAllocation wrap64 env (run step world steps) req =
      createAgentPlanPackageAllocation id env (run step world steps) req ∧
    ∀ world' booking,
      createAgentPlanPackageAllocation wrap64 env (run step world steps) req = .ok (world', booking) →
      ((∃ a ∈ (run step world steps).db.allocations,
          a.userSubscriptionId = req.userSubscriptionId) → world' = run step world steps) ∧
      ((∀ a ∈ (run step world steps).db.allocations,
          a.userSubscriptionId ≠ req.userSubscriptionId) →
        world'.db.allocations = (run step world steps).db.allocations ++ [booking.allocation] ∧
        ∃ freshness verifiedAt pool, req.freshness = some freshness ∧
          freshness.verifiedAt = some verifiedAt ∧
          world'.pools.find booking.allocation.poolId = some pool ∧
          ∀ t, unixOf verifiedAt ≤ t →
            reservedAFPMicros world'.db booking.allocation.poolId t ≤
              pool.officialMonthlyRemainingAFPMicros) := by
  have hreached : WellFormed (run step world steps) := run_preserves wellFormed_step steps hw
  have hexact := createAgentPlanPackageAllocation_exact hreached.inRange env req
  refine ⟨hreached.unique, hexact, ?_⟩
  intro world' booking h
  rw [hexact] at h
  obtain ⟨⟨a, ha, hkey⟩, rfl⟩ | ⟨hnone, _, rfl, hcovered⟩ := create_ok h
  · exact ⟨fun _ => rfl, fun hnone => absurd hkey (hnone a ha)⟩
  · exact ⟨fun ⟨a, ha, hkey⟩ => absurd hkey (hnone a ha), fun _ => ⟨rfl, hcovered⟩⟩

/-- A pool of 100 and a package subscription of it, read at time 1000. -/
def sampleWorld : World where
  db := { subs := .single { id := 7, userId := 1, planId := 1, amountTotal := 40, endTime := 90000 }
          records := .empty
          allocations := [] }
  users := fun _ => some "default"
  pools := .single ⟨1, 1, 1000000, 100, 1000, .available⟩

/-- One package plan, of the whole pool, on a channel that is valid. -/
def sampleEnv : BookingEnv where
  packagePlan := fun id => some ⟨id, 1, 1, 100, "default", some [], false⟩
  lockedPackagePlan := fun id => some ⟨id, 1, 1, 100, "default", some [], false⟩
  channel := fun _ => some true

/-- A booking of subscription 7, ten seconds after the pool was synced. -/
def sampleRequest (syncedAt : ℤ) : AgentPlanPackageAllocationRequest :=
  ⟨1, 7, some ⟨1, syncedAt, some ((syncedAt + 10) * nanos)⟩⟩

theorem sampleWorld_wellFormed : WellFormed sampleWorld :=
  ⟨⟨by decide, by decide, by decide⟩, by decide⟩

/-- A quarter of the package is used before it is booked. -/
theorem pool_not_oversold_sample :
    (createAgentPlanPackageAllocation wrap64 sampleEnv
      (run step sampleWorld [.consume (.delta true 7 10)]) (sampleRequest 1000)).toOption.isSome ∧
    ((run step sampleWorld [.consume (.delta true 7 10)]).db.allocations.map (·.userSubscriptionId)).Nodup :=
  ⟨by decide, (pool_not_oversold sampleWorld [.consume (.delta true 7 10)] sampleWorld_wellFormed
    sampleEnv (sampleRequest 1000)).1⟩

/-- **Booking an allocation again does not look at the stock.**  After its booking a sync finds
the official remainder at 50; the second booking succeeds with 100 reserved. -/
theorem rebooked_while_oversold :
    ∃ world' booking pool,
      createAgentPlanPackageAllocation wrap64 sampleEnv
        (run step sampleWorld [.book sampleEnv (sampleRequest 1000), .sync 1 (some (50, 1020))])
        (sampleRequest 1020) = .ok (world', booking) ∧
      world'.pools.find 1 = some pool ∧
      pool.officialMonthlyRemainingAFPMicros < reservedAFPMicros world'.db 1 1030 := by
  have hrun : ((createAgentPlanPackageAllocation wrap64 sampleEnv
      (run step sampleWorld [.book sampleEnv (sampleRequest 1000), .sync 1 (some (50, 1020))])
      (sampleRequest 1020)).toOption.any fun r => (r.1.pools.find 1).any fun pool =>
        decide (pool.officialMonthlyRemainingAFPMicros < reservedAFPMicros r.1.db 1 1030)) = true := by
    decide +kernel
  cases hbook : createAgentPlanPackageAllocation wrap64 sampleEnv
      (run step sampleWorld [.book sampleEnv (sampleRequest 1000), .sync 1 (some (50, 1020))])
      (sampleRequest 1020) with
  | error e => rw [hbook] at hrun; cases hrun
  | ok r =>
    rw [hbook] at hrun
    cases hpool : r.1.pools.find 1 with
    | none => simp [Except.toOption, hpool] at hrun
    | some pool =>
      refine ⟨r.1, r.2, pool, rfl, hpool, ?_⟩
      simpa [Except.toOption, hpool] using hrun

end OneApi.AgentPlan.NotOversold
