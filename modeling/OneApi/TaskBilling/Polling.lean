import OneApi.Lib.Procs

/-!
# Polling passes over one task

`RunTaskPollingOnce` runs three procedures on every node: the sweep of tasks that timed out, the
reconciliation of failed tasks, and the poll of unfinished tasks.  Each reads rows first and works
on its copies afterwards, so a copy may be older than the row.  A pass is modelled on one row of the
table, with all the columns its procedures compare, write by write; any number of passes run at
once.

Most writes are guarded by the status of the copy (`UpdateWithStatus`).  Two are not:
`TaskBulkUpdateByID` fails the rows of a list without looking at them, and an answer that is handled
on a copy the same pass has already finished is guarded by the status of that copy, which is final.
As long as neither meets a task that is finished, a final status stays and no refund is paid for a
task that succeeded (`success_absorbing`); both can otherwise undo a success
(`success_overwritten`).
-/

namespace OneApi.TaskBilling.Polling

open OneApi.Lib.Run OneApi.Lib.Procs

/-- The status column is a text; the answer of a Suno channel can put any text there. -/
inductive TaskStatus
  | notStart
  | submitted
  | queued
  | inProgress
  | failure
  | success
  | unknown
  | other (text : String)
  deriving Repr, DecidableEq

/-- The columns of a task that a polling pass reads or writes. -/
structure Task where
  taskId : String
  upstreamTaskId : String
  status : TaskStatus
  failReason : String
  submitTime : ℤ
  startTime : ℤ
  finishTime : ℤ
  progress : String
  quota : ℤ
  resultUrl : String
  data : List UInt8
  deriving Repr, DecidableEq

def getUpstreamTaskId (task : Task) : String :=
  if task.upstreamTaskId ≠ "" then task.upstreamTaskId else task.taskId

def isDone (status : TaskStatus) : Prop := status = .success ∨ status = .failure

instance (status : TaskStatus) : Decidable (isDone status) := inferInstanceAs (Decidable (_ ∨ _))

/-! ## Queries and writes on the row -/

def taskRefundLegacyCutoff : ℤ := 1740182400

/-- The filter of `GetTimedOutUnfinishedTasks`. -/
def timedOut (cutoff : ℤ) (row : Task) : Prop :=
  row.progress ≠ "100%" ∧ ¬ isDone row.status ∧ row.submitTime < cutoff

instance (cutoff : ℤ) (row : Task) : Decidable (timedOut cutoff row) :=
  inferInstanceAs (Decidable (_ ∧ _))

/-- The filter of `GetUnrefundedFailedTasks`, but for the grace period. -/
def unrefunded (row : Task) : Prop :=
  row.status = .failure ∧ row.quota ≠ 0 ∧ (row.submitTime ≤ 0 ∨ taskRefundLegacyCutoff ≤ row.submitTime)

instance (row : Task) : Decidable (unrefunded row) := inferInstanceAs (Decidable (_ ∧ _))

/-- The filter of `GetAllUnFinishSyncTasks`. -/
def unfinished (row : Task) : Prop := row.progress ≠ "100%" ∧ ¬ isDone row.status

instance (row : Task) : Decidable (unfinished row) := inferInstanceAs (Decidable (_ ∧ _))

/-- `UpdateWithStatus`: all columns are written if the row still has the status expected; the flag
is whether it had.  `ok = false` is a database error. -/
def updateWithStatus (ok : Bool) (row task : Task) (fromStatus : TaskStatus) : Task × Bool :=
  if ok ∧ row.status = fromStatus then (task, true) else (row, false)

/-- `TaskBulkUpdateByID` with the parameters of a failure; a reason is written if there is one. -/
def taskBulkFail (ok : Bool) (row : Task) (reason : Option String) : Task :=
  if ok then
    { row with status := .failure, progress := "100%", failReason := reason.getD row.failReason }
  else row

def updateQuota (ok : Bool) (row : Task) (quota : ℤ) : Task := if ok then { row with quota } else row

def claimQuotaForRefund (ok : Bool) (row : Task) (expectedQuota : ℤ) : Task × Bool :=
  if ok ∧ expectedQuota ≠ 0 ∧ row.quota = expectedQuota then ({ row with quota := 0 }, true)
  else (row, false)

def restoreQuotaAfterFailedRefund (ok : Bool) (row : Task) (quota : ℤ) : Task :=
  if ok ∧ quota ≠ 0 ∧ row.quota = 0 then { row with quota } else row

/-! ## What a poll makes of its copy -/

/-- The answer of a video channel, once its body is parsed and an error answer is turned into a
failure. -/
structure TaskInfo where
  status : TaskStatus
  reason : String := ""
  url : String := ""
  progress : String := ""
  deriving Repr, DecidableEq

/-- What a poll of a video task runs with: the address in `BuildProxyURL`, the time, and the body
`redactVideoResponseBody` keeps. -/
structure VideoEnv where
  serverAddress : String
  now : ℤ
  data : List UInt8
  deriving Repr, DecidableEq

def buildProxyUrl (serverAddress taskId : String) : String :=
  s!"{serverAddress}/v1/videos/{taskId}/content"

/-- The address of the result of a task that succeeded. -/
def videoResultUrl (env : VideoEnv) (info : TaskInfo) (task : Task) : String :=
  if "data:".toList <+: info.url.toList then buildProxyUrl env.serverAddress task.taskId
  else if info.url ≠ "" then info.url
  else buildProxyUrl env.serverAddress task.taskId

/-- The `switch` of `updateVideoSingleTask` on the copy; `none` is a status it does not know. -/
def videoSwitch (env : VideoEnv) (info : TaskInfo) (task : Task) : Option Task :=
  match info.status with
  | .submitted => some { task with progress := "10%" }
  | .queued => some { task with progress := "20%" }
  | .inProgress =>
    some { task with
      progress := "30%"
      startTime := if task.startTime = 0 then env.now else task.startTime }
  | .success =>
    some { task with
      progress := "100%"
      finishTime := if task.finishTime = 0 then env.now else task.finishTime
      resultUrl := videoResultUrl env info task }
  | .failure =>
    some { task with
      progress := "100%"
      finishTime := if task.finishTime = 0 then env.now else task.finishTime
      failReason := info.reason }
  | .notStart | .unknown | .other _ => none

/-- A progress the answer reports is kept, except on a failure, whose progress is `100%`. -/
def videoProgress (info : TaskInfo) (task : Task) : Task :=
  if info.status ≠ .failure ∧ info.progress ≠ "" then { task with progress := info.progress }
  else task

/-- The columns `taskSnapshot` compares. -/
def snapshotEqual (a b : Task) : Prop :=
  a.status = b.status ∧ a.progress = b.progress ∧ a.startTime = b.startTime ∧
    a.finishTime = b.finishTime ∧ a.failReason = b.failReason ∧ a.resultUrl = b.resultUrl ∧
    a.data = b.data

instance (a b : Task) : Decidable (snapshotEqual a b) := inferInstanceAs (Decidable (_ ∧ _))

/-- An item of the answer of a Suno channel; no status is the empty text. -/
structure SunoDataResponse where
  status : Option TaskStatus
  failReason : String := ""
  submitTime : ℤ := 0
  startTime : ℤ := 0
  finishTime : ℤ := 0
  data : List UInt8 := []
  deriving Repr, DecidableEq

/-- `taskNeedsUpdate`; the bodies are compared with their bytes sorted. -/
def taskNeedsUpdate (task : Task) (item : SunoDataResponse) : Prop :=
  task.submitTime ≠ item.submitTime ∨ task.startTime ≠ item.startTime ∨
    task.finishTime ≠ item.finishTime ∨ some task.status ≠ item.status ∨
    task.failReason ≠ item.failReason ∨ (isDone task.status ∧ task.progress ≠ "100%") ∨
    ¬ task.data.Perm item.data

instance (task : Task) (item : SunoDataResponse) : Decidable (taskNeedsUpdate task item) :=
  inferInstanceAs (Decidable (_ ∨ _))

/-- `isFailure` of `updateSunoTasks`. -/
def sunoFailure (task : Task) (item : SunoDataResponse) : Prop :=
  item.failReason ≠ "" ∨ item.status.getD task.status = .failure

instance (task : Task) (item : SunoDataResponse) : Decidable (sunoFailure task item) :=
  inferInstanceAs (Decidable (_ ∨ _))

/-- The status the copy gets. -/
def sunoStatus (task : Task) (item : SunoDataResponse) : TaskStatus :=
  if sunoFailure task item then .failure else item.status.getD task.status

/-- The copy after an item. -/
def sunoApply (task : Task) (item : SunoDataResponse) : Task :=
  { task with
    status := sunoStatus task item
    failReason := if item.failReason ≠ "" then item.failReason else task.failReason
    submitTime := if item.submitTime ≠ 0 then item.submitTime else task.submitTime
    startTime := if item.startTime ≠ 0 then item.startTime else task.startTime
    finishTime := if item.finishTime ≠ 0 then item.finishTime else task.finishTime
    progress := if sunoFailure task item ∨ item.status = some .success then "100%" else task.progress
    data := item.data }

/-! ## A pass, write by write -/

/-- Where `RefundTaskQuota` was called from. -/
inductive Caller
  | poll
  | timeout
  | reconcile (quota : ℤ)
  deriving Repr, DecidableEq

/-- Where a pass stands between two of its statements, with its copy of the row. -/
inductive Position
  | idle
  /-- `sweepTimedOutTasks` has read the row. -/
  | sweeping (task : Task)
  /-- `sweepUnrefundedFailedTasks` has read the row. -/
  | listed (task : Task)
  /-- The row is in the list of unfinished tasks. -/
  | polling (task : Task)
  /-- `RefundTaskQuota` is about to adjust the funding. -/
  | paying (task : Task) (caller : Caller)
  /-- The funding is adjusted and the quota of the row is to be cleared. -/
  | clearing (task : Task) (caller : Caller)
  /-- The funding could not be adjusted after a claim. -/
  | restoring (quota : ℤ)
  /-- `settleTaskBillingOnComplete`. -/
  | settling (task : Task)
  deriving Repr, DecidableEq

/-- The next statement of a pass, with what it meets. -/
inductive Action
  | readTimedOut (cutoff : ℤ)
  | readUnrefunded
  | readUnfinished
  | timeOut (minutes now : ℤ) (ok : Bool)
  | claim (ok : Bool)
  | bulkFail (reason : Option String) (ok : Bool)
  | video (env : VideoEnv) (info : TaskInfo) (ok : Bool)
  | suno (item : SunoDataResponse) (ok : Bool)
  | adjustFunding (ok : Bool)
  | clear (ok : Bool)
  | restore (ok : Bool)
  | settle (actualQuota : ℤ) (fundingOk ok : Bool)
  | finish
  deriving Repr, DecidableEq

/-- The row, and what refunds of the failed task have given back. -/
structure Store where
  row : Task
  givenBack : ℤ
  deriving Repr, DecidableEq

/-- The copy `sweepTimedOutTasks` writes; an old task is not refunded. -/
def timeOutTask (minutes now : ℤ) (task : Task) : Task :=
  if 0 < task.submitTime ∧ task.submitTime < taskRefundLegacyCutoff then
    { task with
      status := .failure
      progress := "100%"
      finishTime := now
      failReason := "任务超时（旧系统遗留任务，不进行退款，请联系管理员）"
      quota := 0 }
  else
    { task with
      status := .failure
      progress := "100%"
      finishTime := now
      failReason := s!"任务超时（{minutes}分钟）" }

/-- The write of `sweepTimedOutTasks`. -/
def sweepTimedOut (minutes now : ℤ) (ok : Bool) (row task : Task) : Task × Position :=
  let task' := timeOutTask minutes now task
  let (row', won) := updateWithStatus ok row task' task.status
  (row', if won ∧ task'.quota ≠ 0 then .paying task' .timeout else .idle)

/-- What is left to do once `updateVideoSingleTask` has written the row. -/
def videoBilling (shouldRefund shouldSettle : Bool) (task : Task) : Position :=
  if shouldSettle then .settling task
  else if shouldRefund then .paying task .poll
  else .polling task

def updateVideoSingleTask (env : VideoEnv) (info : TaskInfo) (ok : Bool) (row snap : Task) : Task × Position :=
  let copy := { snap with data := env.data, status := info.status }
  match videoSwitch env info copy with
  | none => (row, .polling copy)
  | some task =>
    let task := videoProgress info task
    let shouldSettle := info.status = .success
    let shouldRefund := info.status = .failure ∧ snap.quota ≠ 0
    if isDone task.status ∧ snap.status ≠ task.status then
      let (row', won) := updateWithStatus ok row task snap.status
      (row', videoBilling (won ∧ shouldRefund) (won ∧ shouldSettle) task)
    else if ¬ snapshotEqual snap task then
      ((updateWithStatus ok row task snap.status).1, videoBilling shouldRefund shouldSettle task)
    else (row, videoBilling shouldRefund shouldSettle task)

/-- One item of `updateSunoTasks`. -/
def updateSunoTask (item : SunoDataResponse) (ok : Bool) (row task : Task) : Task × Position :=
  if taskNeedsUpdate task item then
    let task' := sunoApply task item
    let (row', won) := updateWithStatus ok row task' task.status
    (row', if won ∧ sunoFailure task item ∧ task.status ≠ .failure ∧ task'.quota ≠ 0 then
      .paying task' .poll else .polling task')
  else (row, .polling task)

/-- Where a pass goes on after `RefundTaskQuota`. -/
def afterRefund (task : Task) (refunded : Bool) : Caller → Position
  | .poll => .polling task
  | .timeout => .idle
  | .reconcile quota => if refunded then .idle else .restoring quota

/-- One statement.  An action that is not the next one of the pass does nothing; a pass may stop at
any time, by a crash or because its context is cancelled. -/
def act (st : Store) : Position → Action → Store × Position
  | .idle, .readTimedOut cutoff =>
    if timedOut cutoff st.row then (st, .sweeping st.row) else (st, .idle)
  | .idle, .readUnrefunded => if unrefunded st.row then (st, .listed st.row) else (st, .idle)
  | .idle, .readUnfinished => if unfinished st.row then (st, .polling st.row) else (st, .idle)
  | .sweeping task, .timeOut minutes now ok =>
    let (row, position) := sweepTimedOut minutes now ok st.row task
    ({ st with row }, position)
  | .listed task, .claim ok =>
    let (row, claimed) := claimQuotaForRefund ok st.row task.quota
    ({ st with row }, if claimed then .paying task (.reconcile task.quota) else .idle)
  | .polling task, .bulkFail reason ok =>
    -- without a reason for the tasks that have no upstream id, with one when the channel is gone
    if getUpstreamTaskId task = "" ↔ reason = none then
      ({ st with row := taskBulkFail ok st.row reason }, .polling task)
    else (st, .polling task)
  | .polling task, .video env info ok =>
    let (row, position) := updateVideoSingleTask env info ok st.row task
    ({ st with row }, position)
  | .polling task, .suno item ok =>
    let (row, position) := updateSunoTask item ok st.row task
    ({ st with row }, position)
  | .paying task caller, .adjustFunding ok =>
    if ok then ({ st with givenBack := st.givenBack + task.quota }, .clearing task caller)
    else (st, afterRefund task false caller)
  | .clearing task caller, .clear ok =>
    ({ st with row := updateQuota ok st.row 0 }, afterRefund { task with quota := 0 } true caller)
  | .restoring quota, .restore ok =>
    ({ st with row := restoreQuotaAfterFailedRefund ok st.row quota }, .idle)
  | .settling task, .settle actualQuota fundingOk ok =>
    if actualQuota ≤ 0 ∨ actualQuota = task.quota ∨ ¬ fundingOk then (st, .polling task)
    else
      ({ st with row := updateQuota ok st.row actualQuota }, .polling { task with quota := actualQuota })
  | _, .finish => (st, .idle)
  | position, _ => (st, position)

/-- A task with no pass under way. -/
def initial {ι : Type*} (task : Task) : System ι Store Position := ⟨⟨task, 0⟩, fun _ => .idle⟩

/-- No bulk failure meets a row that succeeded, and no answer with another status is handled on a
copy its pass has already finished. -/
def allowedAt (st : Store) : Position → Action → Prop
  | .polling _, .bulkFail _ _ => st.row.status ≠ .success
  | .polling task, .video _ info _ =>
    isDone task.status → task.status = .success ∧ info.status = .success
  | .polling task, .suno item _ => isDone task.status → sunoStatus task item = task.status
  | _, _ => True

def Allowed {ι : Type*} (s : System ι Store Position) (a : ι × Action) : Prop :=
  allowedAt s.shared (s.proc a.1) a.2

instance {ι : Type*} (s : System ι Store Position) (a : ι × Action) : Decidable (Allowed s a) := by
  unfold Allowed allowedAt
  split <;> infer_instance

/-! ## What one statement can do -/

/-- A copy of the timeout sweep is unfinished, and a pass that refunds, or is about to, does so for
a row that failed. -/
def Sound (row : Task) : Position → Prop
  | .sweeping task => ¬ isDone task.status
  | .listed _ | .paying _ _ | .clearing _ _ | .restoring _ => row.status = .failure
  | .idle | .polling _ | .settling _ => True

/-- A statement keeps a final status, and leaves its pass at a sound place. -/
structure Keeps (row : Task) (r : Task × Position) : Prop where
  status : isDone row.status → r.1.status = row.status
  sound : Sound r.1 r.2

variable {row : Task} {p : Position}

theorem keeps_of_same (h : Sound row p) : Keeps row (row, p) :=
  ⟨fun _ => rfl, h⟩

variable (ok : Bool)

theorem updateWithStatus_cases (row task : Task) (fromStatus : TaskStatus) :
    (row.status = fromStatus ∧ updateWithStatus ok row task fromStatus = (task, true)) ∨
      updateWithStatus ok row task fromStatus = (row, false) := by
  by_cases h : ok ∧ row.status = fromStatus
  · exact .inl ⟨h.2, if_pos h⟩
  · exact .inr (if_neg h)

theorem timeOutTask_status (minutes now : ℤ) (task : Task) : (timeOutTask minutes now task).status = .failure := by
  rw [timeOutTask]
  split <;> rfl

variable {task : Task}

/-- The sweep fails the row if it has the status of the copy, and clears the marker of an old task. -/
theorem sweepTimedOut_cases (minutes now : ℤ) (row snap : Task) :
    sweepTimedOut minutes now ok row snap = (row, .idle) ∨ (row.status = snap.status ∧ ∃ task : Task,
      task.status = .failure ∧ (task.quota = 0 ∧ sweepTimedOut minutes now ok row snap = (task, .idle) ∨
        task.quota = snap.quota ∧ task.quota ≠ 0 ∧
          sweepTimedOut minutes now ok row snap = (task, .paying task .timeout))) := by
  rw [sweepTimedOut]
  dsimp only
  have hquota : (timeOutTask minutes now snap).quota = 0 ∨ (timeOutTask minutes now snap).quota = snap.quota := by
    rw [timeOutTask]
    split
    · exact .inl rfl
    · exact .inr rfl
  obtain ⟨hwon, heq⟩ | heq := updateWithStatus_cases ok row (timeOutTask minutes now snap) snap.status
  · refine .inr ⟨hwon, _, timeOutTask_status minutes now snap, ?_⟩
    rw [heq]
    by_cases hzero : (timeOutTask minutes now snap).quota = 0
    · exact .inl ⟨hzero, by simp [hzero]⟩
    · exact .inr ⟨hquota.resolve_left hzero, hzero, by simp [hzero]⟩
  · exact .inl (by rw [heq]; simp)

theorem sweepTimedOut_keeps (h : ¬ isDone task.status) (minutes now : ℤ) (ok : Bool) :
    Keeps row (sweepTimedOut minutes now ok row task) := by
  obtain heq | ⟨hwon, task', hf, ⟨_, heq⟩ | ⟨_, _, heq⟩⟩ := sweepTimedOut_cases ok minutes now row task
  · exact heq ▸ keeps_of_same trivial
  · exact heq ▸ ⟨fun hdone => absurd (hwon ▸ hdone) h, trivial⟩
  · exact heq ▸ ⟨fun hdone => absurd (hwon ▸ hdone) h, hf⟩

/-- What is left to do with a copy that was written. -/
def Billed (task : Task) (p : Position) : Prop :=
  p = .polling task ∨ (task.status = .success ∧ p = .settling task) ∨
    (task.status = .failure ∧ task.quota ≠ 0 ∧ p = .paying task .poll)

/-- An answer makes a copy with the quota of the old one, and with its status if that is final.  The copy is written if
the row has the status of the old one; if it is not written, only one that was final before may be settled. -/
def Polled (row snap : Task) (r : Task × Position) : Prop :=
  ∃ task : Task, task.quota = snap.quota ∧ (isDone snap.status → task.status = snap.status) ∧
    (r = (row, .polling task) ∨ (isDone snap.status ∧ r = (row, .settling task)) ∨
      (row.status = snap.status ∧ r.1 = task ∧ Billed task r.2))

variable {snap : Task}

theorem Polled.keeps {r : Task × Position} (h : Polled row snap r) : Keeps row r := by
  obtain ⟨task, -, hstatus, rfl | ⟨-, rfl⟩ | ⟨hwon, rfl, hbilled⟩⟩ := h
  · exact keeps_of_same trivial
  · exact keeps_of_same trivial
  · refine ⟨fun hdone => (hstatus (hwon ▸ hdone)).trans hwon.symm, ?_⟩
    obtain heq | ⟨-, heq⟩ | ⟨hf, -, heq⟩ := hbilled
    · exact heq ▸ trivial
    · exact heq ▸ trivial
    · exact heq ▸ hf

theorem videoSwitch_columns {env : VideoEnv} {info : TaskInfo} {copy : Task} (h : videoSwitch env info copy = some task) :
    (videoProgress info task).status = copy.status ∧ (videoProgress info task).quota = copy.quota := by
  rw [videoSwitch] at h
  rw [videoProgress]
  split at h <;> cases h <;> split <;> exact ⟨rfl, rfl⟩

theorem billed_videoBilling (task : Task) :
    Billed task (videoBilling (task.status = .failure ∧ task.quota ≠ 0) (task.status = .success) task) := by
  rw [videoBilling]
  split
  · next hs => exact .inr (.inl ⟨of_decide_eq_true hs, rfl⟩)
  · split
    · next hf => exact .inr (.inr ⟨(of_decide_eq_true hf).1, (of_decide_eq_true hf).2, rfl⟩)
    · exact .inl rfl

theorem updateVideoSingleTask_polled {info : TaskInfo}
    (h : isDone snap.status → snap.status = .success ∧ info.status = .success) (env : VideoEnv) (ok : Bool) :
    Polled row snap (updateVideoSingleTask env info ok row snap) := by
  have hkept : isDone snap.status → info.status = snap.status := fun hdone => (h hdone).2.trans (h hdone).1.symm
  rw [updateVideoSingleTask]
  dsimp only
  cases hswitch : videoSwitch env info { snap with data := env.data, status := info.status } with
  | none => exact ⟨{ snap with data := env.data, status := info.status }, rfl, hkept, .inl rfl⟩
  | some switched =>
    obtain ⟨hstatus, hquota⟩ := videoSwitch_columns hswitch
    dsimp only at hstatus hquota ⊢
    generalize videoProgress info switched = task at hstatus hquota ⊢
    refine ⟨task, hquota, fun hdone => hstatus.trans (hkept hdone), ?_⟩
    rw [← hstatus, ← hquota]
    have hbilled := billed_videoBilling task
    split
    · obtain ⟨hwon, heq⟩ | heq := updateWithStatus_cases ok row task snap.status
      · rw [heq]
        exact .inr (.inr ⟨hwon, rfl, by simpa using hbilled⟩)
      · exact .inl (by rw [heq]; simp [videoBilling])
    · next hold =>
      have hagain : videoBilling (task.status = .failure ∧ task.quota ≠ 0) (task.status = .success) task =
            .polling task ∨ isDone snap.status ∧
          videoBilling (task.status = .failure ∧ task.quota ≠ 0) (task.status = .success) task = .settling task := by
        by_cases hdone : isDone task.status
        · have hsame : snap.status = task.status := not_not.mp fun hne => hold ⟨hdone, hne⟩
          have hs := hstatus.trans (h (hsame ▸ hdone)).2
          exact .inr ⟨hsame ▸ hdone, by simp [videoBilling, hs]⟩
        · left
          rw [videoBilling, if_neg (by simpa using fun hs => hdone (.inl hs)),
            if_neg (by simpa using fun hf => absurd (.inr hf) hdone)]
      have hsame := hagain.imp (congrArg (row, ·)) (And.imp_right (congrArg (row, ·)))
      split
      · obtain ⟨hwon, heq⟩ | heq := updateWithStatus_cases ok row task snap.status
        · rw [heq]
          exact .inr (.inr ⟨hwon, rfl, hbilled⟩)
        · rw [heq]
          exact hsame.imp_right .inl
      · exact hsame.imp_right .inl

variable {item : SunoDataResponse}

theorem sunoStatus_of_failure (h : sunoFailure task item) : sunoStatus task item = .failure := if_pos h

theorem updateSunoTask_polled (h : isDone snap.status → sunoStatus snap item = snap.status) (ok : Bool) :
    Polled row snap (updateSunoTask item ok row snap) := by
  rw [updateSunoTask]
  dsimp only
  split
  · refine ⟨sunoApply snap item, rfl, h, ?_⟩
    obtain ⟨hwon, heq⟩ | heq := updateWithStatus_cases ok row (sunoApply snap item) snap.status
    · refine .inr (.inr ⟨hwon, by rw [heq], ?_⟩)
      rw [heq, Billed]
      dsimp only
      split
      · next hpay => exact .inr (.inr ⟨sunoStatus_of_failure hpay.2.1, hpay.2.2.2, rfl⟩)
      · exact .inl rfl
    · exact .inl (by rw [heq]; simp)
  · exact ⟨snap, rfl, fun _ => rfl, .inl rfl⟩

theorem taskBulkFail_keeps (h : row.status ≠ .success) (ok : Bool) (reason : Option String) :
    Keeps row (taskBulkFail ok row reason, .polling task) := by
  refine ⟨fun hdone => ?_, trivial⟩
  have hfail : row.status = .failure := hdone.resolve_left h
  cases ok with
  | true => exact hfail.symm
  | false => rfl

/-- A write of the quota alone. -/
theorem keeps_of_status {row' : Task} (hrow : row'.status = row.status)
    (h : Sound row' p) : Keeps row (row', p) := ⟨fun _ => hrow, h⟩

theorem claimQuotaForRefund_status (row : Task) (quota : ℤ) :
    (claimQuotaForRefund ok row quota).1.status = row.status := by
  rw [claimQuotaForRefund]
  split <;> rfl

theorem updateQuota_status (row : Task) (quota : ℤ) : (updateQuota ok row quota).status = row.status := by
  rw [updateQuota]
  split <;> rfl

theorem restoreQuotaAfterFailedRefund_status (quota : ℤ) :
    (restoreQuotaAfterFailedRefund ok row quota).status = row.status := by
  rw [restoreQuotaAfterFailedRefund]
  split <;> rfl

theorem afterRefund_sound (h : row.status = .failure) (refunded : Bool) (caller : Caller) :
    Sound row (afterRefund task refunded caller) := by
  cases caller with
  | poll | timeout => trivial
  | reconcile quota =>
    cases refunded with
    | true => trivial
    | false => exact h

/-- The step lemma: one case for each statement a pass can be at. -/
theorem act_keeps {st : Store} {a : Action} (hall : allowedAt st p a)
    (hp : Sound st.row p) : Keeps st.row ((act st p a).1.row, (act st p a).2) := by
  cases p with
  | idle =>
    cases a with
    | readTimedOut cutoff =>
      by_cases h : timedOut cutoff st.row
      · rw [act, if_pos h]
        exact keeps_of_same h.2.1
      · rw [act, if_neg h]
        exact keeps_of_same trivial
    | readUnrefunded =>
      by_cases h : unrefunded st.row
      · rw [act, if_pos h]
        exact keeps_of_same h.1
      · rw [act, if_neg h]
        exact keeps_of_same trivial
    | readUnfinished =>
      rw [act]
      split <;> exact keeps_of_same trivial
    | _ => exact keeps_of_same trivial
  | sweeping task =>
    cases a with
    | timeOut minutes now ok => exact sweepTimedOut_keeps hp minutes now ok
    | finish => exact keeps_of_same trivial
    | _ => exact keeps_of_same hp
  | listed task =>
    cases a with
    | claim ok =>
      have hrow := claimQuotaForRefund_status ok st.row task.quota
      refine keeps_of_status hrow ?_
      dsimp only [act]
      split
      · exact hrow.trans hp
      · trivial
    | finish => exact keeps_of_same trivial
    | _ => exact keeps_of_same hp
  | polling task =>
    cases a with
    | bulkFail reason ok =>
      rw [act]
      split
      · exact taskBulkFail_keeps hall ok reason
      · exact keeps_of_same trivial
    | video env info ok => exact (updateVideoSingleTask_polled hall env ok).keeps
    | suno item ok => exact (updateSunoTask_polled hall ok).keeps
    | _ => exact keeps_of_same trivial
  | paying task caller =>
    cases a with
    | adjustFunding ok =>
      rw [act]
      split
      · exact keeps_of_same hp
      · exact keeps_of_same (afterRefund_sound hp false caller)
    | finish => exact keeps_of_same trivial
    | _ => exact keeps_of_same hp
  | clearing task caller =>
    cases a with
    | clear ok =>
      have hrow := updateQuota_status ok st.row 0
      exact keeps_of_status hrow (afterRefund_sound (hrow.trans hp) true caller)
    | finish => exact keeps_of_same trivial
    | _ => exact keeps_of_same hp
  | restoring quota =>
    cases a with
    | restore ok =>
      exact keeps_of_status (restoreQuotaAfterFailedRefund_status ok quota) trivial
    | finish => exact keeps_of_same trivial
    | _ => exact keeps_of_same hp
  | settling task =>
    cases a with
    | settle actualQuota fundingOk ok =>
      rw [act]
      split
      · exact keeps_of_same trivial
      · exact keeps_of_status (updateQuota_status ok st.row actualQuota) trivial
    | _ => exact keeps_of_same trivial

/-- Only a refund gives something back. -/
theorem act_givenBack {st : Store} (a : Action)
    (h : ∀ task caller, p ≠ .paying task caller) : (act st p a).1.givenBack = st.givenBack := by
  cases p with
  | paying task caller => exact absurd rfl (h task caller)
  | idle | polling task | settling task => cases a <;> first | rfl | (rw [act]; split <;> rfl)
  | _ => cases a <;> rfl

/-! ## All passes -/

theorem Sound.of_keeps {row' : Task} (hrow : isDone row.status →
    row'.status = row.status) (h : Sound row p) : Sound row' p := by
  cases p with
  | idle | polling task | settling task => trivial
  | sweeping task => exact h
  | _ => exact (hrow (.inr h)).trans h

/-- Unless the row failed, nothing has been given back. -/
def Unpaid (st : Store) : Prop := st.row.status ≠ .failure → st.givenBack = 0

def Inv {ι : Type*} : System ι Store Position → Prop := Holds Unpaid fun st p => Sound st.row p

section Runs

variable {ι : Type*} [DecidableEq ι]

theorem inv_step (s : System ι Store Position) (a : ι × Action) (hall : Allowed s a)
    (h : Inv s) : Inv (move act s a) := by
  have hkeeps := act_keeps hall (h.proc a.1)
  refine h.move (fun hunpaid hsound => ⟨fun hstatus => ?_, hkeeps.sound⟩) (fun j _ hj => hj.of_keeps hkeeps.status)
  have hbefore : s.shared.row.status ≠ .failure := fun hf =>
    hstatus ((hkeeps.status (.inr hf)).trans hf)
  rw [act_givenBack a.2 fun task caller hp => hbefore (by rw [hp] at hsound; exact hsound)]
  exact hunpaid hbefore

theorem success_step (s : System ι Store Position) (a : ι × Action) (hall : Allowed s a)
    (h : Inv s ∧ s.shared.row.status = .success) : Inv (move act s a) ∧ (move act s a).shared.row.status = .success :=
  ⟨inv_step s a hall h.1,
    ((act_keeps hall (h.1.proc a.1)).status (.inl h.2)).trans h.2⟩

/-- **A success is final.**  In every interleaving of polling passes that meets the condition, a
row that became `SUCCESS` stays `SUCCESS`, and no refund of a failure was or is paid for it. -/
theorem success_absorbing (task : Task) (before after : List (ι × Action))
    (hall : Respects (move act) Allowed (initial task) (before ++ after))
    (hsuccess : (run (move act) (initial task) before).shared.row.status = .success) :
    (run (move act) (initial task) (before ++ after)).shared.row.status = .success ∧
      (run (move act) (initial task) (before ++ after)).shared.givenBack = 0 := by
  obtain ⟨hbefore, hafter⟩ := respects_append.mp hall
  have hstart : Inv (initial task : System ι Store Position) := ⟨fun _ => rfl, fun _ => trivial⟩
  have hmid := run_preserves_of_respects inv_step hbefore hstart
  rw [run_append]
  obtain ⟨hinv, hend⟩ := run_preserves_of_respects success_step hafter ⟨hmid, hsuccess⟩
  refine ⟨hend, hinv.shared ?_⟩
  rw [hend]
  decide

end Runs

/-- A task of a video channel, charged 100. -/
def sampleTask : Task :=
  ⟨"task_1", "up_1", .inProgress, "", 1750000000, 1750000001, 0, "30%", 100, "", []⟩

def sampleEnv : VideoEnv := ⟨"host", 1750000060, [123, 125]⟩

/-- Two passes have read the task; the first one finds it finished and settles it at 80. -/
def sampleBefore : List (Two × Action) :=
  [(.first, .readUnfinished), (.second, .readUnfinished),
    (.first, .video sampleEnv { status := .success, url := "video.mp4" } true),
    (.first, .settle 80 true true)]

/-- The second pass is told of a failure, gives up, and looks for refunds. -/
def sampleAfter : List (Two × Action) :=
  [(.second, .video sampleEnv { status := .failure, reason := "gone" } true), (.second, .finish),
    (.second, .readUnrefunded), (.second, .claim true)]

theorem success_absorbing_stale :
    (run (move act) (initial sampleTask) (sampleBefore ++ sampleAfter)).shared.row.status =
        .success ∧
      (run (move act) (initial sampleTask) (sampleBefore ++ sampleAfter)).shared.givenBack = 0 :=
  success_absorbing sampleTask sampleBefore sampleAfter (by decide +kernel) (by decide +kernel)

/-- **A success can be undone.**  The second pass cannot read its channel and fails the task it had
listed; the charge is then given back.  So it is, with a single pass, when one answer of a Suno
channel names the task twice. -/
theorem success_overwritten :
    ((run (move act) (initial sampleTask) sampleBefore).shared.row.status = .success ∧
      (run (move act) (initial sampleTask) (sampleBefore ++
        [(.second, .bulkFail (some "Failed to get channel info, channel ID: 7") true),
          (.second, .finish), (.second, .readUnrefunded), (.second, .claim true),
          (.second, .adjustFunding true)])).shared.row.status =
        .failure ∧
      (run (move act) (initial sampleTask) (sampleBefore ++
        [(.second, .bulkFail (some "Failed to get channel info, channel ID: 7") true),
          (.second, .finish), (.second, .readUnrefunded), (.second, .claim true),
          (.second, .adjustFunding true)])).shared.givenBack =
        80) ∧
    ((run (move act) (initial sampleTask) [((0 : Fin 1), .readUnfinished),
        (0, .suno { status := some .success } true)]).shared.row.status = .success ∧
      (run (move act) (initial sampleTask) [((0 : Fin 1), .readUnfinished),
        (0, .suno { status := some .success } true),
        (0, .suno { status := some .failure, failReason := "gone" } true),
        (0, .adjustFunding true)]).shared.row.status = .failure ∧
      (run (move act) (initial sampleTask) [((0 : Fin 1), .readUnfinished),
        (0, .suno { status := some .success } true),
        (0, .suno { status := some .failure, failReason := "gone" } true),
        (0, .adjustFunding true)]).shared.givenBack = 100) := by
  decide +kernel

end OneApi.TaskBilling.Polling
