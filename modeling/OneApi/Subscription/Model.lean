import OneApi.Lib.Go
import OneApi.Lib.Loop
import OneApi.Lib.Table

/-!
# Subscription rows, plans and the reset clock

The rows of `model/subscription.go` and the functions that compute on one row: the end time of a
purchase (`calcPlanEndTime`), the next quota reset (`calcNextResetTime`), the lazy reset with its
catch-up loop (`maybeResetUserSubscriptionWithPlanTx`) and the forced reset of an administrator
(`resetUserSubscriptionTx`).

The catch-up loop repeats `calcNextResetTime` until it passes the current time.  Nothing in the
code bounds it, so it runs on a fuel and `none` is a loop that has not ended.
-/

namespace OneApi.Subscription.Model

open OneApi.Lib OneApi.Lib.Go OneApi.Lib.Loop

/-- `duration_unit`; `other` is any text that is none of the five constants. -/
inductive DurationUnit
  | year
  | month
  | day
  | hour
  | custom
  | other (text : String)
  deriving Repr, DecidableEq

/-- A normalised `quota_reset_period`. -/
inductive ResetPeriod
  | never
  | daily
  | weekly
  | monthly
  | custom
  deriving Repr, DecidableEq

inductive SubscriptionStatus
  | active
  | expired
  | cancelled
  deriving Repr, DecidableEq

structure SubscriptionPlan where
  id : ℤ
  durationUnit : DurationUnit := .month
  durationValue : ℤ := 1
  customSeconds : ℤ := 0
  enabled : Bool := true
  allowWalletOverflow : Option Bool := none
  maxPurchasePerUser : ℤ := 0
  upgradeGroup : String := ""
  downgradeGroup : String := ""
  totalAmount : ℤ := 0
  quotaResetPeriod : String := "never"
  quotaResetCustomSeconds : ℤ := 0
  deriving Repr, DecidableEq

structure UserSubscription where
  id : ℤ
  userId : ℤ
  planId : ℤ
  amountTotal : ℤ := 0
  amountUsed : ℤ := 0
  startTime : ℤ := 0
  endTime : ℤ := 0
  status : SubscriptionStatus := .active
  source : String := "order"
  lastResetTime : ℤ := 0
  nextResetTime : ℤ := 0
  upgradeGroup : String := ""
  prevUserGroup : String := ""
  downgradeGroup : String := ""
  allowWalletOverflow : Bool := true
  deriving Repr, DecidableEq

/-- `ORDER BY end_time asc, id asc`. -/
def endsBefore (a b : UserSubscription) : Prop :=
  a.endTime < b.endTime ∨ (a.endTime = b.endTime ∧ a.id ≤ b.id)

instance : DecidableRel endsBefore := fun _ _ => inferInstanceAs (Decidable (_ ∨ _))

/-- The pool allocation of a package subscription.  `scopeModels` is the stored text as the JSON
reader sees it, `none` when it is not a list of strings. -/
structure AgentPlanPackageAllocation where
  userSubscriptionId : ℤ
  poolId : ℤ
  allocationAFPMicros : ℤ
  displayMultiplierMicros : ℤ
  scopeGroup : String
  scopeModels : Option (List String)
  allowWalletFallback : Bool
  deriving Repr, DecidableEq

/-! ## End of a purchase, next reset -/

def calcPlanEndTime (loc : Location) (start : ℤ) (plan : SubscriptionPlan) : Except String ℤ :=
  if plan.durationValue ≤ 0 ∧ plan.durationUnit ≠ .custom then
    .error "duration_value must be > 0"
  else
    match plan.durationUnit with
    | .year => .ok (addDate loc start plan.durationValue 0 0)
    | .month => .ok (addDate loc start 0 plan.durationValue 0)
    | .day => .ok (add start (wrap64 (wrap64 (plan.durationValue * 24) * hour)))
    | .hour => .ok (add start (wrap64 (plan.durationValue * hour)))
    | .custom =>
      if plan.customSeconds ≤ 0 then .error "custom_seconds must be > 0"
      else .ok (add start (wrap64 (plan.customSeconds * second)))
    | .other text => .error ("invalid duration_unit: " ++ text)

def normalizeResetPeriod (period : String) : ResetPeriod :=
  match trimSpace period with
  | "daily" => .daily
  | "weekly" => .weekly
  | "monthly" => .monthly
  | "custom" => .custom
  | _ => .never

/-- `calcNextResetTime`; `0` stands for no further reset. -/
def calcNextResetTime (loc : Location) (base : ℤ) (plan : SubscriptionPlan) (endUnix : ℤ) : ℤ :=
  let (year, month, day) := civil loc base
  let midnight := date loc year month day 0 0 0
  let next? : Option ℤ :=
    match normalizeResetPeriod plan.quotaResetPeriod with
    | .never => none
    | .daily => some (addDate loc midnight 0 0 1)
    | .weekly =>
      -- Monday = 1 .. Sunday = 7, aligned to the next Monday
      let wd := if weekday loc base = 0 then 7 else weekday loc base
      some (addDate loc midnight 0 0 (8 - wd))
    | .monthly => some (addDate loc (date loc year month 1 0 0 0) 0 1 0)
    | .custom =>
      if plan.quotaResetCustomSeconds ≤ 0 then none
      else some (add base (wrap64 (plan.quotaResetCustomSeconds * second)))
  match next? with
  | none => 0
  | some next => if 0 < endUnix ∧ endUnix < next then 0 else next

/-! ## Resets -/

/-- Variables of the catch-up loop: the last reset time reached, the reset after it, and whether
the loop has moved. -/
structure CatchUp where
  base : ℤ
  next : ℤ
  advanced : Bool
  deriving Repr, DecidableEq

/-- One round of the catch-up loop. -/
def catchUpRound (loc : Location) (plan : SubscriptionPlan) (endTime now : ℤ) (c : CatchUp) :
    Option (Next CatchUp CatchUp) :=
  if 0 < c.next ∧ c.next ≤ now then
    some (.again ⟨c.next, calcNextResetTime loc c.next plan endTime, true⟩)
  else some (.done c)

/-- The time the next reset is counted from. -/
def resetBase (sub : UserSubscription) : ℤ :=
  if sub.lastResetTime ≤ 0 then sub.startTime else sub.lastResetTime

/-- `maybeResetUserSubscriptionWithPlanTx`: the row as it is left, `none` while the catch-up loop
has not ended. -/
def maybeResetUserSubscriptionWithPlanTx (fuel : ℕ) (loc : Location) (sub : UserSubscription)
    (plan : SubscriptionPlan) (now : ℤ) : Option UserSubscription :=
  if 0 < sub.nextResetTime ∧ now < sub.nextResetTime then some sub
  else if normalizeResetPeriod plan.quotaResetPeriod = .never then some sub
  else
    let base := resetBase sub
    let start : CatchUp := ⟨base, calcNextResetTime loc base plan sub.endTime, false⟩
    match loop (catchUpRound loc plan sub.endTime now) fuel start with
    | none => none
    | some c =>
      if c.advanced then
        some { sub with amountUsed := 0, lastResetTime := c.base, nextResetTime := c.next }
      else if sub.nextResetTime = 0 ∧ 0 < c.next then
        some { sub with nextResetTime := c.next, lastResetTime := c.base }
      else some sub

def resetUserSubscriptionTx (loc : Location) (sub : UserSubscription) (plan : SubscriptionPlan)
    (now : ℤ) (advanceResetTime : Bool) : UserSubscription :=
  let sub := { sub with amountUsed := 0 }
  if advanceResetTime then
    let nextReset := calcNextResetTime loc now plan sub.endTime
    { sub with nextResetTime := nextReset, lastResetTime := if 0 < nextReset then now else 0 }
  else sub

/-! ### What a reset does to a row -/

variable {fuel : ℕ} {loc : Location} {sub sub' : UserSubscription} {plan : SubscriptionPlan} {now : ℤ}

variable (h : maybeResetUserSubscriptionWithPlanTx fuel loc sub plan now = some sub')

include h in
/-- **A lazy reset leaves the quota used alone or sets it to zero**, and touches nothing but the
quota used and the two reset times. -/
theorem maybeReset_cases :
    ∃ last next, sub' = { sub with amountUsed := sub'.amountUsed, lastResetTime := last,
                                   nextResetTime := next } ∧
      (sub'.amountUsed = sub.amountUsed ∨ sub'.amountUsed = 0) := by
  unfold maybeResetUserSubscriptionWithPlanTx at h
  split at h
  · cases h
    exact ⟨_, _, rfl, .inl rfl⟩
  split at h
  · cases h
    exact ⟨_, _, rfl, .inl rfl⟩
  simp only at h
  split at h
  · cases h
  split at h
  · cases h
    exact ⟨_, _, rfl, .inr rfl⟩
  split at h
  · cases h
    exact ⟨_, _, rfl, .inl rfl⟩
  · cases h
    exact ⟨_, _, rfl, .inl rfl⟩

include h in
theorem maybeReset_id : sub'.id = sub.id := by
  obtain ⟨_, _, hs, _⟩ := maybeReset_cases h
  rw [hs]

include h in
theorem maybeReset_total : sub'.amountTotal = sub.amountTotal := by
  obtain ⟨_, _, hs, _⟩ := maybeReset_cases h
  rw [hs]

/-- The first round of the catch-up loop finds nothing to catch up with: the plan has no reset, or
the reset after the last one, by the plan as it is now, is not past. -/
def resetStalls (loc : Location) (now : ℤ) (plan : SubscriptionPlan) (sub : UserSubscription) : Prop :=
  normalizeResetPeriod plan.quotaResetPeriod = .never ∨
    ¬ (0 < calcNextResetTime loc (resetBase sub) plan sub.endTime ∧
      calcNextResetTime loc (resetBase sub) plan sub.endTime ≤ now)

instance (loc : Location) (now : ℤ) (plan : SubscriptionPlan) (sub : UserSubscription) :
    Decidable (resetStalls loc now plan sub) := inferInstanceAs (Decidable (_ ∨ _))

/-- The catch-up loop leaves a reset that is not past, and says whether it moved: then the reset it leaves is the
one after its base. -/
theorem catchUp_result {endTime : ℤ} {start c : CatchUp} (hstart : start.advanced = false)
    (h : loop (catchUpRound loc plan endTime now) fuel start = some c) :
    ¬ (0 < c.next ∧ c.next ≤ now) ∧ (c.advanced = true ↔ 0 < start.next ∧ start.next ≤ now) ∧
      (c.advanced = true → 0 < c.base ∧ c.next = calcNextResetTime loc c.base plan endTime) := by
  let Moved := fun x : CatchUp => x.advanced = true ∧ (0 < start.next ∧ start.next ≤ now) ∧
    0 < x.base ∧ x.next = calcNextResetTime loc x.base plan endTime
  refine loop_result (fun x => x = start ∨ Moved x)
    (fun c => ¬ (0 < c.next ∧ c.next ≤ now) ∧ (c.advanced = true ↔ 0 < start.next ∧ start.next ≤ now) ∧
      (c.advanced = true → 0 < c.base ∧ c.next = calcNextResetTime loc c.base plan endTime)) ?_ ?_ (.inl rfl) h
  · intro x x' hx hround
    unfold catchUpRound at hround
    split at hround
    · rename_i hpast
      cases hround
      obtain rfl | hx := hx
      · exact .inr ⟨rfl, hpast, hpast.1, rfl⟩
      · exact .inr ⟨rfl, hx.2.1, hpast.1, rfl⟩
    · cases hround
  · intro x c hx hround
    unfold catchUpRound at hround
    split at hround
    · cases hround
    · rename_i hnot
      cases hround
      refine ⟨hnot, ?_⟩
      obtain rfl | hx := hx
      · have hstays : x.advanced ≠ true := fun h => absurd (hstart.symm.trans h) (by decide)
        exact ⟨⟨fun h => absurd h hstays, fun h => absurd h hnot⟩, fun h => absurd h hstays⟩
      · exact ⟨⟨fun _ => hx.2.1, fun _ => hx.1⟩, fun _ => hx.2.2⟩

/-- **A reset that is due** leaves the row as it is when it stalls, and not due otherwise: its next reset is then
the one after its last. -/
theorem maybeReset_due (hdue : 0 < sub.nextResetTime ∧ sub.nextResetTime ≤ now)
    (h : maybeResetUserSubscriptionWithPlanTx fuel loc sub plan now = some sub') :
    (resetStalls loc now plan sub ∧ sub' = sub) ∨
      (¬ resetStalls loc now plan sub ∧ ¬ (0 < sub'.nextResetTime ∧ sub'.nextResetTime ≤ now) ∧
        sub'.planId = sub.planId ∧ sub'.nextResetTime = calcNextResetTime loc (resetBase sub') plan sub'.endTime) := by
  unfold maybeResetUserSubscriptionWithPlanTx at h
  rw [if_neg (by omega)] at h
  split at h
  · rename_i hnever
    cases h
    exact .inl ⟨.inl hnever, rfl⟩
  rename_i hnever
  simp only at h
  split at h
  · cases h
  rename_i c hc
  obtain ⟨hpast, hadv, hafter⟩ := catchUp_result rfl hc
  dsimp only at hadv
  unfold resetStalls
  rw [← hadv]
  split at h
  · rename_i hmoved
    cases h
    obtain ⟨hbase, hnext⟩ := hafter hmoved
    refine .inr ⟨fun hs => hs.elim hnever fun hnot => hnot hmoved, hpast, rfl, ?_⟩
    rw [resetBase, if_neg (not_le.mpr hbase)]
    exact hnext
  · rename_i hmoved
    rw [if_neg (by omega)] at h
    cases h
    exact .inl ⟨.inr hmoved, rfl⟩

theorem maybeReset_mono : Mono fun n => maybeResetUserSubscriptionWithPlanTx n loc sub plan now := by
  intro n m sub' hnm h
  simp only [maybeResetUserSubscriptionWithPlanTx] at h ⊢
  by_cases hearly : 0 < sub.nextResetTime ∧ now < sub.nextResetTime
  · rw [if_pos hearly] at h ⊢
    exact h
  rw [if_neg hearly] at h ⊢
  by_cases hnever : normalizeResetPeriod plan.quotaResetPeriod = .never
  · rw [if_pos hnever] at h ⊢
    exact h
  rw [if_neg hnever] at h ⊢
  rcases (mono_loop (catchUpRound loc plan sub.endTime now) _).none_or_eq hnm with hnone | hloop
  · rw [hnone] at h
    cases h
  · rw [hloop]
    exact h

@[simp] theorem resetUserSubscriptionTx_used (adv : Bool) :
    (resetUserSubscriptionTx loc sub plan now adv).amountUsed = 0 := by
  cases adv <;> rfl

@[simp] theorem resetUserSubscriptionTx_total (adv : Bool) :
    (resetUserSubscriptionTx loc sub plan now adv).amountTotal = sub.amountTotal := by
  cases adv <;> rfl

@[simp] theorem resetUserSubscriptionTx_id (adv : Bool) :
    (resetUserSubscriptionTx loc sub plan now adv).id = sub.id := by
  cases adv <;> rfl

end OneApi.Subscription.Model
