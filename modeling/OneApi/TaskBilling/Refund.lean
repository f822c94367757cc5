import OneApi.TaskBilling.Adjust
import OneApi.TaskBilling.Polling

/-!
# The refund of a failed task

An asynchronous task is charged when it is submitted, and its row keeps the quota as a marker until
a failure is refunded.  Three procedures of a polling pass refund it, each a sequence of single
database writes, on any number of nodes and with a crash possible before every write:

* the poller and the timeout sweep move the row to `FAILURE` by a compare-and-swap on the status;
  the one that wins adjusts the funding and then clears the marker;
* the reconciliation of failed tasks claims the marker first, by a compare-and-swap on the quota,
  and adjusts the funding afterwards; it restores the marker when that fails.

The first two pay before they clear the marker.  A claim in between pays a second time
(`task_refunded_twice`); without such a claim no more than the charge is given back
(`task_refund_bound`).  `RefundTaskQuota` is the two statements of `Polling` in one call
(`refundTaskQuota_statements`).
-/

namespace OneApi.TaskBilling.Refund

open OneApi.Lib.Run OneApi.Lib.Procs OneApi.TaskBilling.Polling Function

/-- The poller and the timeout sweep refund without a claim. -/
def immediate : Caller → Bool
  | .poll | .timeout => true
  | .reconcile _ => false

/-- A pass, and whether an immediate refund of it has paid and not cleared the marker: that stays so
after a crash or a failed write. -/
structure Pass where
  position : Position
  uncleared : Bool := false
  deriving Repr, DecidableEq

def unclearedAfter (uncleared : Bool) : Position → Action → Bool
  | .paying _ caller, .adjustFunding true => immediate caller || uncleared
  | .clearing _ caller, .clear true => !immediate caller && uncleared
  | _, _ => uncleared

/-- One statement of a pass. -/
def act (st : Store) (p : Pass) (a : Action) : Store × Pass :=
  ((Polling.act st p.position a).1, ⟨(Polling.act st p.position a).2, unclearedAfter p.uncleared p.position a⟩)

/-- A task with no pass under way. -/
def initial {ι : Type*} (task : Task) : System ι Store Pass := ⟨⟨task, 0⟩, fun _ => ⟨.idle, false⟩⟩

/-- An immediate refund that may still pay, or has paid and has not cleared the marker. -/
def unsettled (p : Pass) : Bool :=
  p.uncleared || match p.position with
    | .paying _ caller => immediate caller
    | _ => false

/-- The claim of a copy takes the marker of the row. -/
def Takes (row task : Task) (ok : Bool) : Prop := ok = true ∧ task.quota ≠ 0 ∧ row.quota = task.quota

/-- No bulk failure meets a row that succeeded, no answer is handled on a copy that is finished, and a claim takes the
marker of the row only under the given condition. -/
def allowedAt (row : Task) (claimable : Prop) : Position → Action → Prop
  | .listed task, .claim ok => Takes row task ok → claimable
  | .polling _, .bulkFail _ _ => row.status ≠ .success
  | .polling task, .video _ _ _ | .polling task, .suno _ _ => ¬ isDone task.status
  | _, _ => True

instance (row : Task) (claimable : Prop) [Decidable claimable] (p : Position) (a : Action) :
    Decidable (allowedAt row claimable p a) := by
  unfold allowedAt Takes
  split <;> infer_instance

/-- The condition on a run: no claim takes the marker of an unsettled immediate refund. -/
def Allowed {ι : Type*} (s : System ι Store Pass) (a : ι × Action) : Prop :=
  allowedAt s.shared.row (∀ j, unsettled (s.proc j) = false) (s.proc a.1).position a.2

instance {ι : Type*} [Fintype ι] (s : System ι Store Pass) (a : ι × Action) : Decidable (Allowed s a) :=
  inferInstanceAs (Decidable (allowedAt _ _ _ _))

/-! ## The call -/

variable {row snap task : Task}

/-- `RefundTaskQuota` is the adjustment of the funding and the write of the quota, one after the other. -/
theorem refundTaskQuota_statements (faults : Adjust.Faults) (x : Adjust.State) (st : Store) (caller : Caller)
    (hquota : x.task.quota ≠ 0) (hrow : st.row.quota = x.stored) (htask : task.quota = x.task.quota) :
    let paid := (Adjust.taskAdjustFunding faults.fundingOk x.funds x.task (-x.task.quota)).toBool
    let first := Polling.act st (.paying task caller) (.adjustFunding paid)
    let second := Polling.act first.1 first.2 (.clear faults.writeOk)
    (Adjust.refundTaskQuota faults x).2 = paid ∧
      second.1.row.quota = (Adjust.refundTaskQuota faults x).1.stored ∧
      second.1.givenBack = st.givenBack + if paid then x.task.quota else 0 := by
  intro paid first second
  have hcall : Adjust.refundTaskQuota faults x = _ := if_neg hquota
  cases hadjust : Adjust.taskAdjustFunding faults.fundingOk x.funds x.task (-x.task.quota) with
  | error e =>
    have hpaid : paid = false := by simp only [paid, hadjust]; rfl
    rw [hadjust] at hcall
    refine ⟨by rw [hcall, hpaid], ?_, ?_⟩
    · rw [hcall]
      simp only [second, first, hpaid]
      cases caller <;> exact hrow
    · simp only [second, first, hpaid]
      cases caller <;> exact (add_zero _).symm
  | ok funds =>
    have hpaid : paid = true := by simp only [paid, hadjust]; rfl
    rw [hadjust] at hcall
    refine ⟨by rw [hcall, hpaid], ?_, ?_⟩
    · rw [hcall]
      simp only [second, first, hpaid, Polling.act, if_true, updateQuota, Adjust.writeQuota]
      split
      · rfl
      · exact hrow
    · simp only [second, first, hpaid, Polling.act, if_true, htask]

/-! ## What the refund depends on -/

/-- Where a pass stands that has no right to a refund: the copies of unfinished tasks and of the
marker have the quota charged. -/
def Idle (charged : ℤ) (status : TaskStatus) : Position → Prop
  | .idle => True
  | .sweeping task => ¬ isDone task.status ∧ task.quota = charged
  | .polling task => ¬ isDone task.status → task.quota = charged
  | .settling task => status = .success ∧ isDone task.status
  | .listed task => status = .failure ∧ task.quota = charged ∧ charged ≠ 0
  | _ => False

def Quiet (charged : ℤ) (status : TaskStatus) (p : Pass) : Prop :=
  p.uncleared = false ∧ Idle charged status p.position

/-- The pass that holds the right to the refund, and how far it is with it: what the row has for a marker, and what
is given back. -/
inductive Right (charged : ℤ) : (quota given : ℤ) → Pass → Prop
  | paying {task : Task} {caller : Caller} (hcaller : immediate caller = true) (hdone : isDone task.status)
      (htask : task.quota = charged) : Right charged charged 0 ⟨.paying task caller, false⟩
  | clearing {task : Task} {caller : Caller} (hcaller : immediate caller = true) (hdone : isDone task.status) :
      Right charged charged charged ⟨.clearing task caller, true⟩
  /-- It has paid, and will not clear the marker any more. -/
  | paid {position : Position} (hidle : Idle charged .failure position) : Right charged charged charged ⟨position, true⟩
  | claimed {task : Task} (htask : task.quota = charged) : Right charged 0 0 ⟨.paying task (.reconcile charged), false⟩
  | reconciled {task : Task} {quota : ℤ} : Right charged 0 charged ⟨.clearing task (.reconcile quota), false⟩
  | restoring : Right charged 0 0 ⟨.restoring charged, false⟩

variable {ι : Type*} {charged : ℤ}

/-- The states of a task under the three procedures. -/
inductive Inv (charged : ℤ) (st : Store) (proc : ι → Pass) : Prop
  /-- Nothing is given back; unless the task succeeded, the marker is up. -/
  | unpaid (hgiven : st.givenBack = 0) (hquota : st.row.status ≠ .success → st.row.quota = charged)
      (hprocs : ∀ j, Quiet charged st.row.status (proc j))
  /-- Failed, with one pass holding the right to the refund. -/
  | held (i : ι) (hstatus : st.row.status = .failure) (hpos : 0 < charged)
      (hright : Right charged st.row.quota st.givenBack (proc i)) (hprocs : ∀ j, j ≠ i → Quiet charged .failure (proc j))
  /-- Failed, with the marker cleared for good. -/
  | closed (hstatus : st.row.status = .failure) (hquota : st.row.quota = 0)
      (hgiven : st.givenBack ≤ charged) (hprocs : ∀ j, Quiet charged .failure (proc j))

variable {st : Store} {proc : ι → Pass}

theorem Inv.bound (hcharged : 0 ≤ charged) (h : Inv charged st proc) : st.givenBack ≤ charged := by
  cases h with
  | unpaid hgiven => omega
  | held i _ _ hright =>
    generalize proc i = p, st.row.quota = quota, st.givenBack = given at hright ⊢
    cases hright <;> omega
  | closed _ _ hgiven => exact hgiven

variable {status : TaskStatus} {position : Position}

/-- A copy of an unfinished task stays what it is when the task is finished. -/
theorem Idle.finished (hstatus : ¬ isDone status) (h : Idle charged status position) (status' : TaskStatus) :
    Idle charged status' position := by
  cases position with
  | settling task => exact absurd (.inl h.1) hstatus
  | listed task => exact absurd (.inr h.1) hstatus
  | _ => exact h

theorem Quiet.finished {p : Pass} (hstatus : ¬ isDone status) (h : Quiet charged status p) (status' : TaskStatus) :
    Quiet charged status' p := ⟨h.1, h.2.finished hstatus status'⟩

theorem unclearedAfter_idle (h : Idle charged status position) (uncleared : Bool) (a : Action) :
    unclearedAfter uncleared position a = uncleared := by
  cases position with
  | paying task caller | clearing task caller => exact h.elim
  | _ => rfl

/-! ## One statement -/

variable {a : Action}

theorem claimQuotaForRefund_missed {ok : Bool} (h : ¬ Takes row task ok) :
    claimQuotaForRefund ok row task.quota = (row, false) := if_neg h

/-- The answers that a finished row meets are lost. -/
theorem Polled.lost {r : Task × Position} (hdone : isDone row.status) (hsnap : ¬ isDone snap.status)
    (h : Polled row snap r) : ∃ task : Task, task.quota = snap.quota ∧ r = (row, .polling task) := by
  obtain ⟨task, hquota, -, heq | ⟨hfinal, _⟩ | ⟨hwon, _⟩⟩ := h
  · exact ⟨task, hquota, heq⟩
  · exact absurd hfinal hsnap
  · exact absurd (hwon ▸ hdone) hsnap

/-- **On a finished task** a pass without a right to a refund gets nothing done: a settlement may
change the quota of a success, and a copy of the marker may be taken. -/
theorem act_done (hdone : isDone st.row.status) (hquota : st.row.quota = charged ∨ st.row.quota = 0 ∨
      st.row.status = .success) (hidle : Idle charged st.row.status position) (hall : allowedAt st.row False position a) :
    (Polling.act st position a).1.givenBack = st.givenBack ∧
      (Polling.act st position a).1.row.status = st.row.status ∧
      ((Polling.act st position a).1.row.quota = st.row.quota ∨ st.row.status = .success) ∧
      Idle charged st.row.status (Polling.act st position a).2 := by
  have same : ∀ p, Idle charged st.row.status p → st.givenBack = st.givenBack ∧ st.row.status = st.row.status ∧
      (st.row.quota = st.row.quota ∨ st.row.status = .success) ∧ Idle charged st.row.status p :=
    fun p hp => ⟨rfl, rfl, .inl rfl, hp⟩
  cases position with
  | idle =>
    cases a with
    | readTimedOut cutoff =>
      rw [Polling.act, if_neg fun h => h.2.1 hdone]
      exact same _ trivial
    | readUnfinished =>
      rw [Polling.act, if_neg fun h => h.2 hdone]
      exact same _ trivial
    | readUnrefunded =>
      rw [Polling.act]
      split
      · next h =>
        have hcharged : st.row.quota = charged := by
          rcases hquota with hq | hq | hs
          · exact hq
          · exact absurd hq h.2.1
          · exact absurd (hs.symm.trans h.1) (by decide)
        exact same _ ⟨h.1, hcharged, hcharged ▸ h.2.1⟩
      · exact same _ trivial
    | _ => exact same _ trivial
  | sweeping task =>
    cases a with
    | timeOut minutes now ok =>
      obtain heq | ⟨hwon, _⟩ := sweepTimedOut_cases ok minutes now st.row task
      · rw [Polling.act, heq]
        exact same _ trivial
      · exact absurd (hwon ▸ hdone) hidle.1
    | finish => exact same _ trivial
    | _ => exact same _ hidle
  | polling task =>
    cases a with
    | bulkFail reason ok =>
      rw [Polling.act]
      split
      · have hfail : st.row.status = .failure := hdone.resolve_left hall
        cases ok with
        | true => exact ⟨rfl, hfail.symm, .inl rfl, hidle⟩
        | false => exact same _ hidle
      · exact same _ hidle
    | video env info ok =>
      obtain ⟨task', hq, heq⟩ := Polled.lost hdone hall (updateVideoSingleTask_polled (absurd · hall) env ok)
      rw [Polling.act, heq]
      exact same _ fun _ => hq.trans (hidle hall)
    | suno item ok =>
      obtain ⟨task', hq, heq⟩ := Polled.lost hdone hall (updateSunoTask_polled (absurd · hall) ok)
      rw [Polling.act, heq]
      exact same _ fun _ => hq.trans (hidle hall)
    | finish => exact same _ trivial
    | _ => exact same _ hidle
  | settling task =>
    have hfinal : Idle charged st.row.status (.polling task) := fun hnot => absurd hidle.2 hnot
    cases a with
    | settle actualQuota fundingOk ok =>
      rw [Polling.act]
      split
      · exact same _ hfinal
      · exact ⟨rfl, updateQuota_status ok st.row actualQuota, .inr hidle.1, fun hnot => absurd hidle.2 hnot⟩
    | finish => exact same _ trivial
    | _ => exact same _ hidle
  | listed task =>
    cases a with
    | claim ok =>
      rw [Polling.act, claimQuotaForRefund_missed hall]
      exact same _ trivial
    | finish => exact same _ trivial
    | _ => exact same _ hidle
  | _ => exact hidle.elim

/-- What a statement makes of an unfinished task: no claim to a refund, an immediate one, or a
marker that is cleared. -/
def Begun (charged : ℤ) (st st' : Store) (position : Position) : Prop :=
  st'.givenBack = st.givenBack ∧
    (((st'.row.status ≠ .success → st'.row.quota = charged) ∧ Idle charged st'.row.status position) ∨
      (st'.row.status = .failure ∧ st'.row.quota = charged ∧ charged ≠ 0 ∧
        ∃ task caller, immediate caller = true ∧ isDone task.status ∧ task.quota = charged ∧
          position = .paying task caller) ∨
      (st'.row.status = .failure ∧ st'.row.quota = 0 ∧ position = .idle))

theorem Polled.begun {r : Task × Position} (hquota : st.row.quota = charged) (hsnap : snap.quota = charged)
    (hopen : ¬ isDone snap.status) (h : Polled st.row snap r) : Begun charged st { st with row := r.1 } r.2 := by
  obtain ⟨task, hq, -, rfl | ⟨hfinal, _⟩ | ⟨_, rfl, hbilled⟩⟩ := h
  · exact ⟨rfl, .inl ⟨fun _ => hquota, fun _ => hq.trans hsnap⟩⟩
  · exact absurd hfinal hopen
  · have hcharged := hq.trans hsnap
    obtain heq | ⟨hs, heq⟩ | ⟨hf, hne, heq⟩ := hbilled
    · exact ⟨rfl, .inl ⟨fun _ => hcharged, heq ▸ fun _ => hcharged⟩⟩
    · exact ⟨rfl, .inl ⟨fun _ => hcharged, heq ▸ ⟨hs, .inl hs⟩⟩⟩
    · exact ⟨rfl, .inr (.inl ⟨hf, hcharged, hcharged ▸ hne, _, .poll, rfl, .inr hf, hcharged, heq⟩)⟩

/-- **On an unfinished task.** -/
theorem act_unfinished (hopen : ¬ isDone st.row.status) (hquota : st.row.quota = charged)
    (hidle : Idle charged st.row.status position) (hall : allowedAt st.row False position a) :
    Begun charged st (Polling.act st position a).1 (Polling.act st position a).2 := by
  have same : ∀ p, Idle charged st.row.status p → Begun charged st st p := fun p hp =>
    ⟨rfl, .inl ⟨fun _ => hquota, hp⟩⟩
  cases position with
  | idle =>
    cases a with
    | readTimedOut cutoff =>
      rw [Polling.act]
      split
      · exact same _ ⟨hopen, hquota⟩
      · exact same _ trivial
    | readUnfinished =>
      rw [Polling.act]
      split
      · exact same _ fun _ => hquota
      · exact same _ trivial
    | readUnrefunded =>
      rw [Polling.act, if_neg fun h => hopen (.inr h.1)]
      exact same _ trivial
    | _ => exact same _ trivial
  | sweeping task =>
    cases a with
    | timeOut minutes now ok =>
      rw [Polling.act]
      obtain heq | ⟨_, task', hf, ⟨hq, heq⟩ | ⟨hq, hne, heq⟩⟩ := sweepTimedOut_cases ok minutes now st.row task
      · rw [heq]
        exact same _ trivial
      · rw [heq]
        exact ⟨rfl, .inr (.inr ⟨hf, hq, rfl⟩)⟩
      · rw [heq]
        have hcharged := hq.trans hidle.2
        exact ⟨rfl, .inr (.inl ⟨hf, hcharged, hcharged ▸ hne, _, .timeout, rfl, .inr hf, hcharged, rfl⟩)⟩
    | finish => exact same _ trivial
    | _ => exact same _ hidle
  | polling task =>
    cases a with
    | bulkFail reason ok =>
      rw [Polling.act]
      split
      · cases ok with
        | true => exact ⟨rfl, .inl ⟨fun _ => hquota, hidle⟩⟩
        | false => exact same _ hidle
      · exact same _ hidle
    | video env info ok =>
      exact Polled.begun hquota (hidle hall) hall (updateVideoSingleTask_polled (absurd · hall) env ok)
    | suno item ok => exact Polled.begun hquota (hidle hall) hall (updateSunoTask_polled (absurd · hall) ok)
    | finish => exact same _ trivial
    | _ => exact same _ hidle
  | settling task => exact absurd (.inl hidle.1) hopen
  | listed task => exact absurd (.inr hidle.1) hopen
  | _ => exact hidle.elim

/-- A pass that has no right to a refund, nor gets one, on a failed task. -/
theorem act_quiet {p : Pass} (hstatus : st.row.status = .failure) (hquota : st.row.quota = charged ∨ st.row.quota = 0)
    (hidle : Idle charged .failure p.position) (hall : allowedAt st.row False p.position a) :
    ∃ st' position, act st p a = (st', ⟨position, p.uncleared⟩) ∧ st'.givenBack = st.givenBack ∧
      st'.row.status = .failure ∧ st'.row.quota = st.row.quota ∧ Idle charged .failure position := by
  obtain ⟨hgiven, hs, hq, hp⟩ := act_done (.inr hstatus) (hquota.imp_right .inl) (hstatus ▸ hidle) hall
  rw [hstatus] at hs hq hp
  refine ⟨_, _, ?_, hgiven, hs, hq.resolve_right (by decide), hp⟩
  rw [act, unclearedAfter_idle hidle]

/-- The marker is up only as long as the pass with the right is unsettled. -/
theorem Right.marker {p : Pass} {quota given : ℤ} (h : Right charged quota given p) :
    (quota = charged ∧ unsettled p = true) ∨ quota = 0 := by
  cases h with
  | paying hcaller => exact .inl ⟨rfl, hcaller⟩
  | clearing | paid => exact .inl ⟨rfl, rfl⟩
  | claimed | reconciled | restoring => exact .inr rfl

/-- What the pass with the right to the refund makes of it: it keeps the right, or the marker is up
again, or it is cleared. -/
def Outcome (charged : ℤ) (r : Store × Pass) : Prop :=
  r.1.row.status = .failure ∧ (Right charged r.1.row.quota r.1.givenBack r.2 ∨
    (Quiet charged .failure r.2 ∧ r.1.row.quota = charged ∧ r.1.givenBack = 0) ∨
    (Quiet charged .failure r.2 ∧ r.1.row.quota = 0 ∧ r.1.givenBack ≤ charged))

theorem act_right {p : Pass} (hstatus : st.row.status = .failure) (hpos : 0 < charged)
    (h : Right charged st.row.quota st.givenBack p) (hall : allowedAt st.row False p.position a) :
    Outcome charged (act st p a) := by
  have same : Outcome charged (st, p) := ⟨hstatus, .inl h⟩
  obtain ⟨row, given⟩ := st
  dsimp only at hstatus h
  generalize hquota : row.quota = quota at h
  cases h with
  | @paying task caller hcaller hdone htask =>
    have hback : Quiet charged .failure ⟨afterRefund task false caller, false⟩ := by
      cases caller with
      | poll => exact ⟨rfl, fun _ => htask⟩
      | timeout => exact ⟨rfl, trivial⟩
      | reconcile quota => cases hcaller
    cases a with
    | adjustFunding ok =>
      cases ok with
      | true =>
        have hright : Right charged row.quota (0 + task.quota) ⟨.clearing task caller, immediate caller || false⟩ := by
          rw [hquota, zero_add, htask, hcaller]
          exact .clearing hcaller hdone
        exact ⟨hstatus, .inl hright⟩
      | false => exact ⟨hstatus, .inr (.inl ⟨hback, hquota, rfl⟩)⟩
    | finish => exact ⟨hstatus, .inr (.inl ⟨⟨rfl, trivial⟩, hquota, rfl⟩)⟩
    | _ => exact same
  | @clearing task caller hcaller hdone =>
    have hidle : Idle charged .failure (afterRefund { task with quota := 0 } true caller) := by
      cases caller with
      | poll => exact fun hnot => absurd hdone hnot
      | timeout | reconcile quota => trivial
    have hpaid : ∀ {position}, Idle charged .failure position → Right charged row.quota charged ⟨position, true⟩ :=
      fun hidle => hquota.symm ▸ .paid hidle
    cases a with
    | clear ok =>
      cases ok with
      | true => exact ⟨hstatus, .inr (.inr ⟨⟨by rw [act, unclearedAfter, hcaller]; rfl, hidle⟩, rfl, le_rfl⟩)⟩
      | false => exact ⟨hstatus, .inl (hpaid hidle)⟩
    | finish => exact ⟨hstatus, .inl (hpaid trivial)⟩
    | _ => exact same
  | @paid position hidle =>
    obtain ⟨st', position', hact, hg, hs, hq, hp⟩ := act_quiet (p := ⟨position, true⟩) hstatus (.inl hquota) hidle hall
    rw [hact]
    refine ⟨hs, .inl ?_⟩
    rw [hq, hg, hquota]
    exact .paid hp
  | @claimed task htask =>
    cases a with
    | adjustFunding ok =>
      cases ok with
      | true =>
        have hright : Right charged row.quota (0 + task.quota) ⟨.clearing task (.reconcile charged), false⟩ := by
          rw [hquota, zero_add, htask]
          exact .reconciled
        exact ⟨hstatus, .inl hright⟩
      | false => exact ⟨hstatus, .inl (hquota.symm ▸ .restoring)⟩
    | finish => exact ⟨hstatus, .inr (.inr ⟨⟨rfl, trivial⟩, hquota, hpos.le⟩)⟩
    | _ => exact same
  | reconciled =>
    cases a with
    | clear ok =>
      cases ok with
      | true => exact ⟨hstatus, .inr (.inr ⟨⟨rfl, trivial⟩, rfl, le_rfl⟩)⟩
      | false => exact ⟨hstatus, .inr (.inr ⟨⟨rfl, trivial⟩, hquota, le_rfl⟩)⟩
    | finish => exact ⟨hstatus, .inr (.inr ⟨⟨rfl, trivial⟩, hquota, le_rfl⟩)⟩
    | _ => exact same
  | restoring =>
    cases a with
    | restore ok =>
      cases ok with
      | true =>
        have hrow : restoreQuotaAfterFailedRefund true row charged = { row with quota := charged } :=
          if_pos ⟨rfl, hpos.ne', hquota⟩
        rw [act, Polling.act, hrow]
        exact ⟨hstatus, .inr (.inl ⟨⟨rfl, trivial⟩, rfl, rfl⟩)⟩
      | false => exact ⟨hstatus, .inr (.inr ⟨⟨rfl, trivial⟩, hquota, hpos.le⟩)⟩
    | finish => exact ⟨hstatus, .inr (.inr ⟨⟨rfl, trivial⟩, hquota, hpos.le⟩)⟩
    | _ => exact same

/-! ## Every run -/

variable {s : System ι Store Pass} {i : ι}

/-- The condition on a run, where no claim takes the marker. -/
theorem allowedAt_of_allowed (hall : Allowed s (i, a))
    (hmiss : ∀ task ok, (s.proc i).position = .listed task → a = .claim ok → ¬ Takes s.shared.row task ok) :
    allowedAt s.shared.row False (s.proc i).position a := by
  simp only [Allowed, allowedAt] at hall ⊢
  split at hall
  · next task ok hposition => exact hmiss task ok hposition rfl
  all_goals exact hall

variable [DecidableEq ι]

/-- The pass with the right to the refund has moved. -/
theorem held_self {p : Pass} (hstatus : st.row.status = .failure) (hpos : 0 < charged)
    (hright : Right charged st.row.quota st.givenBack p) (hother : ∀ j, j ≠ i → Quiet charged .failure (proc j)) :
    Inv charged st (update proc i p) := by
  refine .held i hstatus hpos (by rw [update_self]; exact hright) ?_
  intro j hj
  rw [update_of_ne hj]
  exact hother j hj

/-- While nothing is given back. -/
theorem inv_step_unpaid (hcharged : 0 ≤ charged) (hall : Allowed s (i, a)) (hgiven : s.shared.givenBack = 0)
    (hquota : s.shared.row.status ≠ .success → s.shared.row.quota = charged)
    (hprocs : ∀ j, Quiet charged s.shared.row.status (s.proc j)) :
    Inv charged (act s.shared (s.proc i) a).1 (update s.proc i (act s.shared (s.proc i) a).2) := by
  obtain ⟨huncleared, hidle⟩ := hprocs i
  by_cases htakes : ∃ task ok, (s.proc i).position = .listed task ∧ a = .claim ok ∧ Takes s.shared.row task ok
  · -- the claim gets the right to the refund
    obtain ⟨task, ok, hposition, rfl, htakes⟩ := htakes
    rw [hposition] at hidle
    obtain ⟨hstatus, htask, hpos⟩ := hidle
    have hclaim : claimQuotaForRefund ok s.shared.row task.quota = ({ s.shared.row with quota := 0 }, true) :=
      if_pos htakes
    have hact : act s.shared (s.proc i) (.claim ok) =
        ({ s.shared with row := { s.shared.row with quota := 0 } }, ⟨.paying task (.reconcile charged), false⟩) := by
      rw [act, hposition, huncleared, Polling.act, hclaim, htask]
      rfl
    rw [hact]
    have hright : Right charged 0 s.shared.givenBack ⟨.paying task (.reconcile charged), false⟩ :=
      hgiven.symm ▸ .claimed htask
    exact held_self hstatus (lt_of_le_of_ne hcharged hpos.symm) hright fun j _ => hstatus ▸ hprocs j
  have hat := allowedAt_of_allowed hall fun task ok hposition ha htakes' => htakes ⟨task, ok, hposition, ha, htakes'⟩
  rw [act, unclearedAfter_idle hidle, huncleared]
  by_cases hdone : isDone s.shared.row.status
  · have hq : s.shared.row.quota = charged ∨ s.shared.row.quota = 0 ∨ s.shared.row.status = .success := by
      tauto
    obtain ⟨hg, hs, hq', hp⟩ := act_done hdone hq hidle hat
    refine .unpaid (hg.trans hgiven) ?_ (update_proc ⟨rfl, hs ▸ hp⟩ fun j _ => hs ▸ hprocs j)
    intro hne
    rw [hs] at hne
    exact (hq'.resolve_right hne).trans (hquota hne)
  · have hup := hquota fun hs => hdone (.inl hs)
    have hrest : ∀ status' j, j ≠ i → Quiet charged status' (s.proc j) := fun status' j _ =>
      (hprocs j).finished hdone status'
    obtain ⟨hg, hcase⟩ := act_unfinished hdone hup hidle hat
    obtain ⟨hq, hp⟩ | ⟨hs, hq, hpos, task, caller, hcaller, hfinal, htask, hp⟩ | ⟨hs, hq, hp⟩ := hcase
    · exact .unpaid (hg.trans hgiven) hq (update_proc ⟨rfl, hp⟩ (hrest _))
    · rw [hp]
      refine held_self hs (lt_of_le_of_ne hcharged hpos.symm) ?_ (hrest _)
      rw [hq, hg, hgiven]
      exact .paying hcaller hfinal htask
    · rw [hp]
      exact .closed hs hq (by rw [hg, hgiven]; exact hcharged) (update_proc ⟨rfl, trivial⟩ (hrest _))

/-- **Step lemma.** -/
theorem inv_step (hcharged : 0 ≤ charged) (s : System ι Store Pass) (a : ι × Action)
    (hall : Allowed s a) (hinv : Inv charged s.shared s.proc) :
    Inv charged (move act s a).shared (move act s a).proc := by
  obtain ⟨i, a⟩ := a
  show Inv charged (act s.shared (s.proc i) a).1 (update s.proc i (act s.shared (s.proc i) a).2)
  -- a marker that is not up cannot be claimed
  have hcleared : s.shared.row.quota = 0 → allowedAt s.shared.row False (s.proc i).position a := fun hzero =>
    allowedAt_of_allowed hall fun task ok _ _ htakes => htakes.2.1 (htakes.2.2.symm.trans hzero)
  cases hinv with
  | unpaid hgiven hquota hprocs => exact inv_step_unpaid hcharged hall hgiven hquota hprocs
  | held k hstatus hpos hright hprocs =>
    have hat : allowedAt s.shared.row False (s.proc i).position a := by
      obtain ⟨_, hunsettled⟩ | hzero := hright.marker
      · refine allowedAt_of_allowed hall fun task ok hposition ha htakes => ?_
        subst ha
        simp only [Allowed, hposition, allowedAt] at hall
        exact absurd ((hall htakes k).symm.trans hunsettled) (by decide)
      · exact hcleared hzero
    by_cases hik : i = k
    · subst hik
      obtain ⟨hs, hkeeps | ⟨hp, hq, hg⟩ | ⟨hp, hq, hg⟩⟩ := act_right hstatus hpos hright hat
      · exact held_self hs hpos hkeeps hprocs
      · exact .unpaid hg (fun _ => hq) (update_proc (hs ▸ hp) (hs ▸ hprocs))
      · exact .closed hs hq hg (update_proc hp hprocs)
    · obtain ⟨huncleared, hidle⟩ := hprocs i hik
      obtain ⟨st', position, hact, hg, hs, hq, hp⟩ :=
        act_quiet hstatus (hright.marker.imp_left And.left) hidle hat
      rw [hact]
      refine .held k hs hpos ?_ ?_
      · rw [update_of_ne (Ne.symm hik)]
        rw [hq, hg]
        exact hright
      · exact update_proc (P := fun j p => j ≠ k → Quiet charged .failure p) (fun _ => ⟨huncleared, hp⟩)
          fun j _ hj => hprocs j hj
  | closed hstatus hquota hgiven hprocs =>
    obtain ⟨huncleared, hidle⟩ := hprocs i
    obtain ⟨st', position, hact, hg, hs, hq, hp⟩ := act_quiet hstatus (.inr hquota) hidle (hcleared hquota)
    rw [hact]
    exact .closed hs (hq.trans hquota) (hg.trans_le hgiven) (update_proc ⟨huncleared, hp⟩ fun j _ => hprocs j)

/-- **A failed task is refunded at most once**, for any number of passes in any interleaving
and with any crashes, as long as no claim takes the marker of an immediate refund that is under way
or has paid without clearing it, and a final status stays. -/
theorem task_refund_bound (task : Task) (hcharged : 0 ≤ task.quota) (actions : List (ι × Action))
    (hallowed : Respects (move act) Allowed (initial task) actions) :
    (run (move act) (initial task) actions).shared.givenBack ≤ task.quota :=
  have hstart : Inv task.quota (initial (ι := ι) task).shared (initial task).proc :=
    .unpaid rfl (fun _ => rfl) fun _ => ⟨rfl, trivial⟩
  (run_preserves_of_respects (inv_step hcharged) hallowed hstart).bound hcharged

/-- The funding of the poller's refund fails, a first claim fails to pay and restores the marker, a
second one pays. -/
theorem task_refund_bound_retried :
    (run (move act) (initial sampleTask)
      [((0 : Fin 3), .readUnfinished), (0, .video sampleEnv { status := .failure, reason := "gone" } true),
       (0, .adjustFunding false), (1, .readUnrefunded), (2, .readUnrefunded),
       (1, .claim true), (1, .adjustFunding false), (1, .restore true), (2, .claim true),
       (2, .adjustFunding true), (2, .clear true)]).shared.givenBack ≤ 100 :=
  task_refund_bound sampleTask (by decide) _ (by decide +kernel)

/-- **A claim after a payment pays again**: the poller wins the task, pays and crashes before it
clears the marker, and the reconciliation claims the marker and pays. -/
theorem task_refunded_twice :
    (run (move act) (initial sampleTask)
      [(Two.first, .readUnfinished), (.first, .video sampleEnv { status := .failure, reason := "gone" } true),
       (.first, .adjustFunding true), (.first, .finish), (.second, .readUnrefunded), (.second, .claim true),
       (.second, .adjustFunding true), (.second, .clear true)]).shared.givenBack = 200 := by
  decide +kernel

end OneApi.TaskBilling.Refund
