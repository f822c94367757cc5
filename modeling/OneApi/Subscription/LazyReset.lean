import OneApi.Lib.Calendar
import OneApi.Subscription.Model

/-!
# Catching up with missed resets

`maybeResetUserSubscriptionWithPlanTx` goes from reset to reset until one is still to come.  A plan whose
resets move forward (`MovesForward`) is caught up with in finitely many rounds, and it makes no difference when
and how often that is done.  Calendar periods do so in every zone that reaches and keeps its midnights, as one
without transitions.  Two kinds of plan do not move forward, and the loop then goes round in circles:

* the seconds of a custom period are multiplied by `time.Second` in 64 bits, and may come out below a second;
* where the clocks are set forward at midnight, west of Greenwich, `time.Date` answers for the midnight that is
  left out with eleven in the evening of the day before.
-/

namespace OneApi.Subscription.LazyReset

open OneApi.Lib OneApi.Lib.Go OneApi.Lib.Loop OneApi.Subscription.Model

/-- The reset after a time. -/
abbrev nextReset (loc : Location) (plan : SubscriptionPlan) (endTime base : ℤ) : ℤ :=
  calcNextResetTime loc base plan endTime

/-- Every reset of the plan is later than the time it is counted from. -/
def Increasing (loc : Location) (plan : SubscriptionPlan) : Prop :=
  ∀ endTime base, 0 < nextReset loc plan endTime base → base < nextReset loc plan endTime base

/-- The state of the catch-up loop at a time. -/
abbrev stateAt (loc : Location) (plan : SubscriptionPlan) (endTime base : ℤ) (advanced : Bool) : CatchUp :=
  ⟨base, nextReset loc plan endTime base, advanced⟩

/-- The wall clock reading of the next reset of a calendar period: a day, some days or a month after what the
midnight before is read as. -/
def boundary (loc : Location) (period : ResetPeriod) (base : ℤ) : ℤ :=
  let day := loc.wall base / 86400
  let midnight := loc.wall (loc.resolve (day * 86400))
  match period with
  | .weekly => midnight + (7 - (day + 3) % 7) * 86400
  | .monthly =>
    let first := loc.wall (loc.resolve (firstOfMonth day * 86400))
    (firstOfNextMonth (first / 86400) + ((civilFromDays (first / 86400)).2.2 - 1)) * 86400 + first % 86400
  | _ => midnight + 86400

/-- The plan's period moves a time forward.  A custom period is at least a second after the multiplication.  For
the others the offset that the boundary is read with may be ahead of the offset in force, but by less than the
clock still has to go to the boundary. -/
def MovesForward (loc : Location) (plan : SubscriptionPlan) : Prop :=
  match normalizeResetPeriod plan.quotaResetPeriod with
  | .never => True
  | .custom => plan.quotaResetCustomSeconds ≤ 0 ∨ second ≤ wrap64 (plan.quotaResetCustomSeconds * second)
  | period => ∀ base, 0 < loc.resolve (boundary loc period base) →
      loc.readAs (boundary loc period base) - (loc.lookup base).offset < boundary loc period base - loc.wall base

section Forward

variable {loc : Location} {plan : SubscriptionPlan}

/-- The end of the subscription only takes resets away. -/
theorem nextReset_end (loc : Location) (plan : SubscriptionPlan) (endTime base : ℤ) :
    nextReset loc plan endTime base = 0 ∨ nextReset loc plan endTime base = nextReset loc plan 0 base := by
  simp only [nextReset, calcNextResetTime]
  split
  · exact .inl rfl
  · omega

theorem nextReset_custom (hperiod : normalizeResetPeriod plan.quotaResetPeriod = .custom) (base : ℤ) :
    nextReset loc plan 0 base = if plan.quotaResetCustomSeconds ≤ 0 then 0
      else base + wrap64 (plan.quotaResetCustomSeconds * second) / second := by
  simp only [nextReset, calcNextResetTime, hperiod]
  by_cases hs : plan.quotaResetCustomSeconds ≤ 0
  · simp [hs]
  · simp [hs, add]

theorem nextReset_never (hperiod : normalizeResetPeriod plan.quotaResetPeriod = .never) (base : ℤ) :
    nextReset loc plan 0 base = 0 := by
  simp only [nextReset, calcNextResetTime, hperiod]

theorem nextReset_daily (hperiod : normalizeResetPeriod plan.quotaResetPeriod = .daily) (base : ℤ) :
    nextReset loc plan 0 base = loc.resolve (boundary loc .daily base) := by
  simp only [nextReset, calcNextResetTime, hperiod, date_midnight, addDate_days, lt_irrefl, false_and, if_false,
    boundary, one_mul]

theorem nextReset_weekly (hperiod : normalizeResetPeriod plan.quotaResetPeriod = .weekly) (base : ℤ) :
    nextReset loc plan 0 base = loc.resolve (boundary loc .weekly base) := by
  -- Monday is the first day of the week, and Sunday the seventh
  have hweekday : 8 - (if weekday loc base = 0 then 7 else weekday loc base) = 7 - (loc.wall base / 86400 + 3) % 7 := by
    rw [weekday]
    split <;> omega
  simp only [nextReset, calcNextResetTime, hperiod, date_midnight, addDate_days, lt_irrefl, false_and, if_false,
    boundary, hweekday]

theorem nextReset_monthly (hperiod : normalizeResetPeriod plan.quotaResetPeriod = .monthly) (base : ℤ) :
    nextReset loc plan 0 base = loc.resolve (boundary loc .monthly base) := by
  simp only [nextReset, calcNextResetTime, hperiod, date_first, addDate_month, lt_irrefl, false_and, if_false,
    boundary]
  rfl

/-- A reading is later than the base if the offset it is read with is not too far ahead. -/
theorem lt_resolve_iff (base reading : ℤ) :
    base < loc.resolve reading ↔ loc.readAs reading - (loc.lookup base).offset < reading - loc.wall base := by
  rw [Location.resolve, Location.wall]
  omega

theorem movesForward_iff : MovesForward loc plan ↔ Increasing loc plan := by
  have hend : Increasing loc plan ↔ ∀ base, 0 < nextReset loc plan 0 base → base < nextReset loc plan 0 base := by
    constructor
    · intro h base
      exact h 0 base
    · intro h endTime base hpos
      rcases nextReset_end loc plan endTime base with heq | heq
      · omega
      · rw [heq] at hpos ⊢
        exact h base hpos
  rw [hend, MovesForward]
  split
  · next hperiod =>
    refine ⟨fun _ base hpos => ?_, fun _ => trivial⟩
    rw [nextReset_never hperiod] at hpos
    omega
  · next hperiod =>
    have hfloor : second ≤ wrap64 (plan.quotaResetCustomSeconds * second) ↔
        0 < wrap64 (plan.quotaResetCustomSeconds * second) / second := by
      rw [Int.lt_iff_add_one_le, Int.le_ediv_iff_mul_le (by decide)]
      omega
    simp only [nextReset_custom hperiod, hfloor]
    constructor
    · intro h base hpos
      split at hpos
      · omega
      · next hs =>
        rw [if_neg hs]
        omega
    · intro h
      by_cases hs : plan.quotaResetCustomSeconds ≤ 0
      · exact .inl hs
      · -- a time late enough for its reset to be positive whatever the period
        have hlate := h (1 + |wrap64 (plan.quotaResetCustomSeconds * second) / second|)
        rw [if_neg hs] at hlate
        have habs := neg_abs_le (wrap64 (plan.quotaResetCustomSeconds * second) / second)
        exact .inr (by omega)
  · next hnever hcustom =>
    have hcalendar : ∀ base, nextReset loc plan 0 base =
        loc.resolve (boundary loc (normalizeResetPeriod plan.quotaResetPeriod) base) := by
      intro base
      cases hperiod : normalizeResetPeriod plan.quotaResetPeriod with
      | never => exact absurd hperiod hnever
      | custom => exact absurd hperiod hcustom
      | daily => exact nextReset_daily hperiod base
      | weekly => exact nextReset_weekly hperiod base
      | monthly => exact nextReset_monthly hperiod base
    simp only [hcalendar, lt_resolve_iff]

/-- Where every midnight is reached and kept, the boundary is a midnight to come. -/
theorem boundary_midnight (h : KeepsMidnights loc) (period : ResetPeriod) (base : ℤ) :
    ∃ day, boundary loc period base = day * 86400 ∧ loc.wall base < day * 86400 := by
  have hday := Int.emod_add_mul_ediv (loc.wall base) 86400
  have hclock := Int.emod_lt_of_pos (loc.wall base) (show (0 : ℤ) < 86400 by decide)
  cases period with
  | weekly =>
    refine ⟨loc.wall base / 86400 + (7 - (loc.wall base / 86400 + 3) % 7), ?_, by omega⟩
    simp only [boundary, h.reached]
    omega
  | monthly =>
    have hlater := lt_firstOfNextMonth (loc.wall base / 86400)
    refine ⟨firstOfNextMonth (loc.wall base / 86400), ?_, by omega⟩
    simp only [boundary, h.reached]
    rw [Int.mul_ediv_cancel _ (by decide), Int.mul_emod_left]
    simp only [civilFromDays_firstOfMonth, firstOfNextMonth_firstOfMonth, sub_self, add_zero]
  | _ =>
    refine ⟨loc.wall base / 86400 + 1, ?_, by omega⟩
    simp only [boundary, h.reached]
    omega

/-- **Calendar periods move forward** wherever no transition takes away or repeats a midnight. -/
theorem movesForward_of_keepsMidnights (h : KeepsMidnights loc)
    (hperiod : normalizeResetPeriod plan.quotaResetPeriod ≠ .custom) : MovesForward loc plan := by
  rw [MovesForward]
  split
  · trivial
  · next hcustom => exact absurd hcustom hperiod
  · intro base _
    obtain ⟨day, hboundary, hlt⟩ := boundary_midnight h (normalizeResetPeriod plan.quotaResetPeriod) base
    rw [← lt_resolve_iff, hboundary]
    exact h.lt hlt

theorem movesForward_fixed (offset : ℤ) (hperiod : normalizeResetPeriod plan.quotaResetPeriod ≠ .custom) :
    MovesForward (.fixed offset) plan := movesForward_of_keepsMidnights (keepsMidnights_fixed offset) hperiod

end Forward

/-! ## The loop and what it comes to -/

section CatchUp

attribute [local irreducible] calcNextResetTime

variable {loc : Location} {plan : SubscriptionPlan} {sub sub' : UserSubscription} {now now' : ℤ}

variable {endTime base : ℤ}

theorem round_due (h : Due (nextReset loc plan endTime) now base) (advanced : Bool) :
    catchUpRound loc plan endTime now (stateAt loc plan endTime base advanced) =
      some (.again (stateAt loc plan endTime (nextReset loc plan endTime base) true)) := by
  rw [Due] at h
  rw [catchUpRound, if_pos h]

theorem round_not_due (h : ¬ Due (nextReset loc plan endTime) now base) (advanced : Bool) :
    catchUpRound loc plan endTime now (stateAt loc plan endTime base advanced) =
      some (.done (stateAt loc plan endTime base advanced)) := by
  rw [Due] at h
  rw [catchUpRound, if_neg h]

/-- The loop stops where the resets are caught up with, and says whether it has moved. -/
theorem loop_caughtUp {endTime base c : ℤ} (h : CaughtUp (nextReset loc plan endTime) now base c)
    (advanced : Bool) :
    ∃ fuel, loop (catchUpRound loc plan endTime now) fuel (stateAt loc plan endTime base advanced) =
      some (stateAt loc plan endTime c (advanced || decide (Due (nextReset loc plan endTime) now base))) := by
  induction h generalizing advanced with
  | done hnot =>
    refine ⟨1, ?_⟩
    rw [loop, round_not_due hnot, decide_eq_false hnot, Bool.or_false]
  | next hdue hnext ih =>
    obtain ⟨fuel, hloop⟩ := ih true
    refine ⟨fuel + 1, ?_⟩
    rw [loop, round_due hdue]
    show loop _ fuel _ = _
    rw [hloop, Bool.true_or, decide_eq_true hdue, Bool.or_true]

/-- The row after resets up to a time. -/
def movedTo (loc : Location) (plan : SubscriptionPlan) (sub : UserSubscription) (c : ℤ) : UserSubscription :=
  { sub with amountUsed := 0, lastResetTime := c, nextResetTime := nextReset loc plan sub.endTime c }

/-- The row with its first reset written down. -/
def scheduled (loc : Location) (plan : SubscriptionPlan) (sub : UserSubscription) : UserSubscription :=
  { sub with
    nextResetTime := nextReset loc plan sub.endTime (resetBase sub)
    lastResetTime := resetBase sub }

/-- The row that is left when the resets are caught up with. -/
def caughtUpRow (loc : Location) (plan : SubscriptionPlan) (sub : UserSubscription) (now c : ℤ) : UserSubscription :=
  if Due (nextReset loc plan sub.endTime) now (resetBase sub) then movedTo loc plan sub c
  else if sub.nextResetTime = 0 ∧ 0 < nextReset loc plan sub.endTime (resetBase sub) then scheduled loc plan sub
  else sub

/-- The reset of a row ends, and leaves a row. -/
def ResetsTo (loc : Location) (plan : SubscriptionPlan) (sub : UserSubscription) (now : ℤ)
    (sub' : UserSubscription) : Prop :=
  ∃ fuel, maybeResetUserSubscriptionWithPlanTx fuel loc sub plan now = some sub'

/-- The resets of the row are looked for. -/
def Looks (plan : SubscriptionPlan) (sub : UserSubscription) (now : ℤ) : Prop :=
  ¬ (0 < sub.nextResetTime ∧ now < sub.nextResetTime) ∧ normalizeResetPeriod plan.quotaResetPeriod ≠ .never

theorem resetsTo_of_not_looks (h : ¬ Looks plan sub now) : ResetsTo loc plan sub now sub := by
  refine ⟨0, ?_⟩
  rw [maybeResetUserSubscriptionWithPlanTx]
  by_cases hearly : 0 < sub.nextResetTime ∧ now < sub.nextResetTime
  · rw [if_pos hearly]
  · have hnever : normalizeResetPeriod plan.quotaResetPeriod = .never := by
      by_contra hnever
      exact h ⟨hearly, hnever⟩
    rw [if_neg hearly, if_pos hnever]

theorem resetsTo_of_caughtUp (h : Looks plan sub now) {c : ℤ}
    (hc : CaughtUp (nextReset loc plan sub.endTime) now (resetBase sub) c) :
    ResetsTo loc plan sub now (caughtUpRow loc plan sub now c) := by
  obtain ⟨fuel, hloop⟩ := loop_caughtUp hc false
  refine ⟨fuel, ?_⟩
  rw [maybeResetUserSubscriptionWithPlanTx, if_neg h.1, if_neg h.2]
  simp only [hloop, Bool.false_or, decide_eq_true_eq, caughtUpRow]
  split
  · rfl
  · next hnot =>
    -- nothing was due, so the loop has stayed where it began
    cases hc with
    | done _ =>
      split
      · rfl
      · rfl
    | next hdue _ => exact absurd hdue hnot

theorem resetsTo_of_due (h : Looks plan sub now)
    (hdue : Due (nextReset loc plan sub.endTime) now (resetBase sub)) {c : ℤ}
    (hc : CaughtUp (nextReset loc plan sub.endTime) now (resetBase sub) c) :
    ResetsTo loc plan sub now (movedTo loc plan sub c) := by
  have hrow := resetsTo_of_caughtUp h hc
  rw [caughtUpRow] at hrow
  rw [if_pos hdue] at hrow
  exact hrow

theorem resetsTo_self (hdue : ¬ Due (nextReset loc plan sub.endTime) now (resetBase sub))
    (hset : ¬ (sub.nextResetTime = 0 ∧ 0 < nextReset loc plan sub.endTime (resetBase sub))) :
    ResetsTo loc plan sub now sub := by
  by_cases hlooks : Looks plan sub now
  · have hrow := resetsTo_of_caughtUp hlooks (.done hdue)
    rw [caughtUpRow] at hrow
    rw [if_neg hdue, if_neg hset] at hrow
    exact hrow
  · exact resetsTo_of_not_looks hlooks

variable {s s' : UserSubscription}

theorem ResetsTo.unique (h : ResetsTo loc plan sub now s) (h' : ResetsTo loc plan sub now s') : s = s' := by
  obtain ⟨n, hn⟩ := h
  obtain ⟨m, hm⟩ := h'
  exact maybeReset_mono.unique hn hm

theorem exists_resetsTo (hforward : Increasing loc plan) : ∃ s, ResetsTo loc plan sub now s := by
  by_cases hlooks : Looks plan sub now
  · obtain ⟨c, hc⟩ := exists_caughtUp (hforward sub.endTime) now (resetBase sub)
    exact ⟨_, resetsTo_of_caughtUp hlooks hc⟩
  · exact ⟨sub, resetsTo_of_not_looks hlooks⟩

/-- Writing down the base that the resets are counted from does not change it. -/
theorem resetBase_scheduled (loc : Location) (plan : SubscriptionPlan) (sub : UserSubscription) :
    resetBase (scheduled loc plan sub) = resetBase sub := by
  show (if resetBase sub ≤ 0 then sub.startTime else resetBase sub) = resetBase sub
  by_cases hlast : sub.lastResetTime ≤ 0
  · rw [show resetBase sub = sub.startTime from if_pos hlast]
    simp
  · rw [show resetBase sub = sub.lastResetTime from if_neg hlast, if_neg hlast]

/-- A row that has its next reset written down goes on from its base. -/
theorem resetsTo_of_written (hperiod : normalizeResetPeriod plan.quotaResetPeriod ≠ .never) {b c : ℤ}
    (hbase : resetBase sub = b) (hnext : sub.nextResetTime = nextReset loc plan sub.endTime b)
    (hc : CaughtUp (nextReset loc plan sub.endTime) now b c) : ResetsTo loc plan sub now
      (if Due (nextReset loc plan sub.endTime) now b then movedTo loc plan sub c else sub) := by
  subst hbase
  split
  · next hdue =>
    refine resetsTo_of_due ⟨fun hearly => ?_, hperiod⟩ hdue hc
    rw [hnext] at hearly
    exact absurd hdue.2 (not_le.mpr hearly.2)
  · next hdue =>
    refine resetsTo_self hdue fun hset => ?_
    rw [← hnext] at hset
    exact absurd hset.1 hset.2.ne'

/-- Resetting a row on the way makes no difference. -/
theorem ResetsTo.resume (hforward : Increasing loc plan) (hle : now ≤ now')
    (h : ResetsTo loc plan sub now s) (h' : ResetsTo loc plan s now' s') : ResetsTo loc plan sub now' s' := by
  by_cases hlooks : Looks plan sub now
  case neg =>
    rw [← (resetsTo_of_not_looks hlooks).unique h] at h'
    exact h'
  have hlater : Looks plan sub now' := ⟨fun hearly => hlooks.1 ⟨hearly.1, by omega⟩, hlooks.2⟩
  obtain ⟨c, hc⟩ := exists_caughtUp (hforward sub.endTime) now (resetBase sub)
  obtain ⟨d, hd⟩ := exists_caughtUp (hforward sub.endTime) now' c
  have hgoal := resetsTo_of_caughtUp hlater (hc.resume hle hd)
  rw [caughtUpRow] at hgoal
  by_cases hdue : Due (nextReset loc plan sub.endTime) now (resetBase sub)
  · -- the row has moved to `c`, and goes on from there
    obtain rfl := (resetsTo_of_due hlooks hdue hc).unique h
    rw [if_pos (hdue.mono hle)] at hgoal
    have hbase : resetBase (movedTo loc plan sub c) = c := if_neg (not_le.mpr (hc.pos (.inr hdue)))
    rw [h'.unique (resetsTo_of_written hlooks.2 hbase rfl hd)]
    split
    · exact hgoal
    · next hstays =>
      cases hd with
      | done _ => exact hgoal
      | next hdue _ => exact absurd hdue hstays
  · cases hc with
    | next hc _ => exact absurd hc hdue
    | done _ =>
    by_cases hset : sub.nextResetTime = 0 ∧ 0 < nextReset loc plan sub.endTime (resetBase sub)
    · -- the next reset has been written down
      have hrow := resetsTo_of_caughtUp hlooks (.done hdue)
      rw [caughtUpRow, if_neg hdue, if_pos hset] at hrow
      obtain rfl := hrow.unique h
      have hbase := resetBase_scheduled loc plan sub
      rw [if_pos hset] at hgoal
      rw [h'.unique (resetsTo_of_written hlooks.2 hbase rfl hd)]
      exact hgoal
    · rw [← (resetsTo_self hdue hset).unique h] at h'
      exact h'

/-- A row whose next reset is the one it has just had is never done with. -/
theorem not_ends_of_stuck (hlooks : Looks plan sub now) (hpos : 0 < resetBase sub) (hle : resetBase sub ≤ now)
    (hstuck : nextReset loc plan sub.endTime (resetBase sub) = resetBase sub) :
    ¬ Ends fun fuel => maybeResetUserSubscriptionWithPlanTx fuel loc sub plan now := by
  have hdue : Due (nextReset loc plan sub.endTime) now (resetBase sub) := by
    rw [Due, hstuck]
    exact ⟨hpos, hle⟩
  have hloop : ¬ Ends fun fuel => loop (catchUpRound loc plan sub.endTime now) fuel
      (stateAt loc plan sub.endTime (resetBase sub) false) := by
    refine not_ends_of_invariant (fun c => ∃ advanced, c = stateAt loc plan sub.endTime (resetBase sub) advanced)
      ?_ ⟨false, rfl⟩
    rintro n c r ⟨advanced, rfl⟩ hround
    rw [round_due hdue, hstuck] at hround
    exact ⟨_, (Option.some.inj hround).symm, true, rfl⟩
  rintro ⟨fuel, hsome⟩
  refine hloop ⟨fuel, ?_⟩
  dsimp only at hsome
  rw [maybeResetUserSubscriptionWithPlanTx, if_neg hlooks.1, if_neg hlooks.2] at hsome
  by_contra hnone
  simp only [Option.not_isSome_iff_eq_none.mp hnone] at hsome
  cases hsome

/-- The rounds of the loop. -/
def Round (loc : Location) (plan : SubscriptionPlan) (endTime now : ℤ) (c c' : CatchUp) : Prop :=
  catchUpRound loc plan endTime now c = some (.again c')

theorem stateAt_of_rounds {c : CatchUp}
    (h : Relation.ReflTransGen (Round loc plan endTime now) (stateAt loc plan endTime base false) c) :
    ∃ base advanced, c = stateAt loc plan endTime base advanced := by
  induction h with
  | refl => exact ⟨base, false, rfl⟩
  | tail _ hround ih =>
    obtain ⟨base, advanced, rfl⟩ := ih
    rw [Round] at hround
    by_cases hdue : Due (nextReset loc plan endTime) now base
    · rw [round_due hdue] at hround
      cases hround
      exact ⟨_, true, rfl⟩
    · rw [round_not_due hdue] at hround
      cases hround

theorem round_forward (hforward : Increasing loc plan) {c c' : CatchUp}
    (h : Relation.ReflTransGen (Round loc plan endTime now) (stateAt loc plan endTime base false) c)
    (hround : Round loc plan endTime now c c') : c.base < c'.base := by
  obtain ⟨base, advanced, rfl⟩ := stateAt_of_rounds h
  rw [Round] at hround
  by_cases hdue : Due (nextReset loc plan endTime) now base
  · rw [round_due hdue] at hround
    cases hround
    exact hforward endTime base hdue.1
  · rw [round_not_due hdue] at hround
    cases hround

end CatchUp

/-- A subscription whose resets are counted from a time. -/
def startedAt (startTime endTime : ℤ) : UserSubscription :=
  { id := 1, userId := 1, planId := 1, startTime, endTime }

theorem resetBase_startedAt (startTime endTime : ℤ) : resetBase (startedAt startTime endTime) = startTime :=
  if_pos (le_refl 0)

/-- **When the catch-up loop ends, each round moving the reset time forward**, for every subscription of the plan
and every time: exactly if the plan's period moves forward. -/
theorem catchUp_ends_iff (loc : Location) (plan : SubscriptionPlan) :
    (∀ (sub : UserSubscription) (now : ℤ),
      Ends (fun fuel => maybeResetUserSubscriptionWithPlanTx fuel loc sub plan now) ∧
        ∀ c c', Relation.ReflTransGen (Round loc plan sub.endTime now)
            (stateAt loc plan sub.endTime (resetBase sub) false) c →
          Round loc plan sub.endTime now c c' → c.base < c'.base) ↔
      MovesForward loc plan := by
  rw [movesForward_iff]
  constructor
  · intro h endTime base hpos
    have hdue : Due (nextReset loc plan endTime) (nextReset loc plan endTime base) base := ⟨hpos, le_refl _⟩
    have hround := round_due hdue false
    have hsub := (h (startedAt base endTime) (nextReset loc plan endTime base)).2
    rw [resetBase_startedAt] at hsub
    have hlt := hsub _ _ .refl hround
    dsimp only [stateAt, startedAt] at hlt
    exact hlt
  · intro hforward sub now
    obtain ⟨s, fuel, hs⟩ := exists_resetsTo hforward
    exact ⟨⟨fuel, Option.isSome_of_eq_some hs⟩, fun c c' => round_forward hforward⟩

/-- A period of 2^55 seconds, which is no time at all after the multiplication. -/
def wrappedPlan : SubscriptionPlan :=
  { id := 1, quotaResetPeriod := "custom", quotaResetCustomSeconds := 2 ^ 55 }

/-- Three hours behind, and two from the midnight that begins the eleventh day. -/
def springZone : Location :=
  ⟨fun t => if t < 874800 then ⟨-10800, -2 ^ 63, 874800⟩ else ⟨-7200, 874800, maxInt64⟩⟩

def dailyPlan : SubscriptionPlan := { id := 1, quotaResetPeriod := "daily" }

/-- **Both plans are accepted, and neither loop ends**: the one with the wrapped period in any zone, and the
daily one from eleven in the evening before the clocks are set forward. -/
theorem catchUp_never_ends :
    (∀ loc, ¬ Ends fun fuel => maybeResetUserSubscriptionWithPlanTx fuel loc (startedAt 1 0) wrappedPlan 1) ∧
      ¬ Ends fun fuel => maybeResetUserSubscriptionWithPlanTx fuel springZone (startedAt 871200 0) dailyPlan
        871200 := by
  have hcustom : normalizeResetPeriod wrappedPlan.quotaResetPeriod = .custom := by decide +kernel
  have hdaily : normalizeResetPeriod dailyPlan.quotaResetPeriod = .daily := by decide +kernel
  have hspring : nextReset springZone dailyPlan 0 871200 = 871200 := by decide +kernel
  have hwrapped : ∀ loc, nextReset loc wrappedPlan 0 1 = 1 := by
    intro loc
    rw [nextReset_custom hcustom]
    decide +kernel
  constructor
  · intro loc
    exact not_ends_of_stuck ⟨by decide, by rw [hcustom]; decide⟩ (by decide) (by decide) (hwrapped loc)
  · exact not_ends_of_stuck ⟨by decide, by rw [hdaily]; decide⟩ (by decide) (by decide) hspring

/-- **Catching up does not depend on the way**: reset at any times up to the last one, the row ends as if it had
been reset at the last time only, and another reset at that time changes nothing. -/
theorem catchUp_path_independent {loc : Location} {plan : SubscriptionPlan} (hforward : Increasing loc plan)
    (sub : UserSubscription) (times : List ℤ) (now : ℤ) (hsorted : (times ++ [now]).Pairwise (· ≤ ·)) :
    ∃ s N, ∀ fuel ≥ N,
      (times ++ [now]).foldlM (fun sub now => maybeResetUserSubscriptionWithPlanTx fuel loc sub plan now) sub
          = some s
        ∧ maybeResetUserSubscriptionWithPlanTx fuel loc sub plan now = some s
        ∧ maybeResetUserSubscriptionWithPlanTx fuel loc s plan now = some s := by
  induction times generalizing sub with
  | nil =>
    obtain ⟨s, hs⟩ := exists_resetsTo hforward
    obtain ⟨s', hs'⟩ := exists_resetsTo hforward
    obtain rfl := (hs.resume hforward (le_refl now) hs').unique hs
    obtain ⟨n, hn⟩ := hs
    obtain ⟨m, hm⟩ := hs'
    refine ⟨s', max n m, fun fuel hfuel => ?_⟩
    have honce : maybeResetUserSubscriptionWithPlanTx fuel loc sub plan now = some s' :=
      maybeReset_mono n fuel s' (by omega) hn
    refine ⟨?_, honce, maybeReset_mono m fuel s' (by omega) hm⟩
    rw [List.nil_append, List.foldlM_cons, honce]
    rfl
  | cons first times ih =>
    obtain ⟨hfirst, hrest⟩ := List.pairwise_cons.mp hsorted
    obtain ⟨s₁, hs₁⟩ := exists_resetsTo hforward
    obtain ⟨s, N, hall⟩ := ih s₁ hrest
    have hle : first ≤ now := hfirst now (List.mem_append_right times (List.mem_singleton_self now))
    obtain ⟨m, hm⟩ := hs₁.resume hforward hle ⟨N, (hall N (le_refl N)).2.1⟩
    obtain ⟨n, hn⟩ := hs₁
    refine ⟨s, max N (max n m), fun fuel hfuel => ?_⟩
    obtain ⟨hfold, -, hagain⟩ := hall fuel (by omega)
    have hstep : maybeResetUserSubscriptionWithPlanTx fuel loc sub plan first = some s₁ :=
      maybeReset_mono n fuel s₁ (by omega) hn
    refine ⟨?_, maybeReset_mono m fuel s (by omega) hm, hagain⟩
    rw [List.cons_append, List.foldlM_cons, hstep]
    exact hfold

/-- A reset every hour. -/
def hourlyPlan : SubscriptionPlan :=
  { id := 1, quotaResetPeriod := "custom", quotaResetCustomSeconds := 3600 }

theorem hourlyPlan_path_independent :
    (maybeResetUserSubscriptionWithPlanTx 4 (.fixed 0) (startedAt 1000 0) hourlyPlan 9000).map
        UserSubscription.lastResetTime = some 8200 ∧
      ∃ s N, ∀ fuel ≥ N, ([4700] ++ [9000]).foldlM
          (fun sub now => maybeResetUserSubscriptionWithPlanTx fuel (.fixed 0) sub hourlyPlan now)
            (startedAt 1000 0) = some s
        ∧ maybeResetUserSubscriptionWithPlanTx fuel (.fixed 0) (startedAt 1000 0) hourlyPlan 9000 = some s
        ∧ maybeResetUserSubscriptionWithPlanTx fuel (.fixed 0) s hourlyPlan 9000 = some s := by
  have hperiod : normalizeResetPeriod hourlyPlan.quotaResetPeriod = .custom := by decide +kernel
  have hforward : MovesForward (.fixed 0) hourlyPlan := by
    rw [MovesForward, hperiod]
    exact .inr (by decide)
  exact ⟨by decide +kernel, catchUp_path_independent (movesForward_iff.mp hforward) (startedAt 1000 0)
    [4700] 9000 (by decide)⟩

end OneApi.Subscription.LazyReset
