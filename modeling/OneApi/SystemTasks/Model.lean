import OneApi.Lib.Procs
import OneApi.Lib.Table

/-!
# System tasks and their leases

The procedures of `model/system_task.go` over the two tables they share.  The lock of a type is one row, whose
key is the type; claiming a task is a lookup, an insert or a takeover of that row, the failure of the task it
named, and the update of the claimed task.  Every statement is one move of its thread, and what a thread knows
between two statements is its place.  Times are read once, when a call begins, and compared later, by the
statements.

A row of the tasks has two unique keys, a number and a text; the text names the row here.  A runner has one
thread that claims and any number of others, for the handlers and their heartbeats.
-/

namespace OneApi.SystemTasks

open OneApi.Lib OneApi.Lib.Procs

inductive SystemTaskStatus
  | pending
  | running
  | succeeded
  | failed
  deriving Repr, DecidableEq

structure SystemTask where
  taskID : String
  type : String
  status : SystemTaskStatus := .pending
  activeKey : Option String := none
  payload : String := ""
  state : String := ""
  result : String := ""
  error : String := ""
  lockedBy : String := ""
  createdAt : ℤ := 0
  updatedAt : ℤ := 0
  deriving Repr, DecidableEq

structure SystemTaskLock where
  type : String
  taskID : String
  lockedBy : String
  lockedUntil : ℤ
  updatedAt : ℤ
  deriving Repr, DecidableEq

structure Store where
  tasks : Table SystemTask SystemTask.taskID
  locks : Table SystemTaskLock SystemTaskLock.type
  clock : ℤ

/-- A thread of a runner; the one without a number makes the claims. -/
structure Thread where
  runner : String
  worker : Option ℕ := none
  deriving Repr, DecidableEq

/-- The arguments of `ClaimSystemTask`, and the time it began. -/
structure Claim where
  taskID : String
  type : String
  now : ℤ
  lockUntil : ℤ
  deriving Repr, DecidableEq

/-- A handler finishes its task as succeeded or as failed; no caller passes another status. -/
inductive Outcome
  | succeeded
  | failed
  deriving Repr, DecidableEq

def Outcome.status : Outcome → SystemTaskStatus
  | .succeeded => .succeeded
  | .failed => .failed

/-- The statement a thread is about to send. -/
inductive Place
  | idle
  | create (taskID type payload state : String) (now : ℤ)
  | find (c : Claim)
  | lock (c : Claim)
  | existing (c : Claim)
  | takeOver (c : Claim) (expiredTaskID : String)
  | markOld (c : Claim) (expiredTaskID : String)
  | start (c : Claim)
  | release (c : Claim)
  | updateState (taskID state : String) (now : ℤ)
  | renew (taskID : String) (now lockUntil : ℤ)
  | findStale (now : ℤ)
  | markStale (now : ℤ) (lock : SystemTaskLock) (rest : List SystemTaskLock)
  | deleteStale (now : ℤ) (lock : SystemTaskLock) (rest : List SystemTaskLock)
  | finish (taskID : String) (outcome : Outcome) (result errorMessage : String) (now : ℤ)
  | releaseFinished (taskID : String)
  deriving Repr, DecidableEq

/-! ## The statements -/

def SystemTask.run (now : ℤ) (runner : String) (task : SystemTask) : SystemTask :=
  { task with status := .running, lockedBy := runner, updatedAt := now }

def SystemTask.setState (now : ℤ) (state : String) (task : SystemTask) : SystemTask :=
  { task with state, updatedAt := now }

def SystemTask.expire (now : ℤ) (task : SystemTask) : SystemTask :=
  { task with status := .failed, activeKey := none, error := "task lease expired", updatedAt := now }

def SystemTask.finish (outcome : Outcome) (result errorMessage : String) (now : ℤ) (task : SystemTask) : SystemTask :=
  { task with
    status := outcome.status
    activeKey := none
    result
    error := errorMessage
    updatedAt := now }

def Claim.systemTaskLock (c : Claim) (runner : String) : SystemTaskLock where
  type := c.type
  taskID := c.taskID
  lockedBy := runner
  lockedUntil := c.lockUntil
  updatedAt := c.now

/-- The rows of the runner's locks on a task. -/
def SystemTaskLock.names (taskID runner : String) (lock : SystemTaskLock) : Bool :=
  lock.taskID = taskID ∧ lock.lockedBy = runner

/-- The subquery of the guarded updates: a lock of the runner on the task that has not expired. -/
def Store.leased (x : Store) (taskID runner : String) (now : ℤ) : Bool :=
  x.locks.rows.any fun lock => lock.names taskID runner && (now ≤ lock.lockedUntil : Bool)

def newSystemTask (taskID type payload state : String) (now : ℤ) : SystemTask where
  taskID := taskID
  type := type
  activeKey := some type
  payload := payload
  state := state
  createdAt := now
  updatedAt := now

/-- The unique index on `active_key`. -/
def Store.activeKeyTaken (x : Store) (task : SystemTask) : Bool :=
  task.activeKey.isSome && x.tasks.rows.any fun other => other.activeKey = task.activeKey

def Store.insertTask (x : Store) (task : SystemTask) : Store :=
  if x.activeKeyTaken task then x
  else
    match x.tasks.insert task with
    | none => x
    | some tasks => { x with tasks }

def Claim.found (c : Claim) (task : SystemTask) : Bool := task.type = c.type ∧ task.status = .pending

def Store.markSystemTaskLeaseExpired (x : Store) (taskID : String) : Store :=
  match x.tasks.updateIf taskID (fun task => task.status = .running) (SystemTask.expire x.clock) with
  | none => x
  | some tasks => { x with tasks }

def Store.releaseSystemTaskLock (x : Store) (taskID runner : String) : Store :=
  { x with locks := x.locks.deleteWhere (SystemTaskLock.names taskID runner) }

/-- The guard of the updates of a running task by its runner. -/
def Store.guarded (x : Store) (runner : String) (now : ℤ) (task : SystemTask) : Bool :=
  (task.status = .running ∧ task.lockedBy = runner : Bool) && x.leased task.taskID runner now

def SystemTaskLock.renewed (now lockUntil : ℤ) (lock : SystemTaskLock) : SystemTaskLock :=
  { lock with lockedUntil := lockUntil, updatedAt := now }

theorem SystemTaskLock.renewed_type (now lockUntil : ℤ) (lock : SystemTaskLock) :
    (lock.renewed now lockUntil).type = lock.type := rfl

def Store.renewSystemTaskLock (x : Store) (taskID runner : String) (now lockUntil : ℤ) : Store :=
  { x with
    locks := x.locks.updateWhere (fun lock => lock.names taskID runner && (now ≤ lock.lockedUntil : Bool))
      (SystemTaskLock.renewed now lockUntil) (SystemTaskLock.renewed_type now lockUntil) }

/-- The next lock of a pass over stale locks. -/
def Place.sweep (now : ℤ) : List SystemTaskLock → Place
  | [] => .idle
  | head :: rest => .markStale now head rest

/-- The condition under which a pass over stale locks deletes a lock it has read. -/
def SystemTaskLock.stale (now : ℤ) (seen lock : SystemTaskLock) : Bool :=
  lock.type = seen.type ∧ lock.taskID = seen.taskID ∧ lock.lockedBy = seen.lockedBy ∧ lock.lockedUntil < now

/-- The statement at a place; `fault` is one that fails. -/
def statement (x : Store) (t : Thread) (fault : Bool) : Place → Store × Place
  | .idle => (x, .idle)
  | .create taskID type payload state now =>
    (if fault then x else x.insertTask (newSystemTask taskID type payload state now), .idle)
  | .find c =>
    if fault then (x, .idle)
    else
      match (x.tasks.find c.taskID).filter c.found with
      | none => (x, .idle)
      | some _ => (x, .lock c)
  | .lock c =>
    match if fault then none else x.locks.insert (c.systemTaskLock t.runner) with
    | none => (x, .existing c)
    | some locks => ({ x with locks }, .start c)
  | .existing c =>
    if fault then (x, .idle)
    else
      match x.locks.find c.type with
      | none => (x, .idle)
      | some lock => (x, if c.now ≤ lock.lockedUntil then .idle else .takeOver c lock.taskID)
  | .takeOver c expiredTaskID =>
    if fault then (x, .idle)
    else
      match x.locks.updateIf c.type (fun lock => lock.lockedUntil < c.now) (fun _ => c.systemTaskLock t.runner) with
      | none => (x, .idle)
      | some locks =>
        ({ x with locks },
          if expiredTaskID ≠ "" ∧ expiredTaskID ≠ c.taskID then .markOld c expiredTaskID else .start c)
  | .markOld c expiredTaskID =>
    if fault then (x, .release c) else (x.markSystemTaskLeaseExpired expiredTaskID, .start c)
  | .start c =>
    match if fault then none else x.tasks.updateIf c.taskID c.found (SystemTask.run c.now t.runner) with
    | none => (x, .release c)
    | some tasks => ({ x with tasks }, .idle)
  | .release c => (if fault then x else x.releaseSystemTaskLock c.taskID t.runner, .idle)
  | .updateState taskID state now =>
    match if fault then none
      else x.tasks.updateIf taskID (x.guarded t.runner now) (SystemTask.setState now state) with
    | none => (x, .idle)
    | some tasks => ({ x with tasks }, .idle)
  | .renew taskID now lockUntil =>
    (if fault then x else x.renewSystemTaskLock taskID t.runner now lockUntil, .idle)
  | .findStale now =>
    (x, if fault then .idle else .sweep now (x.locks.rows.filter fun lock => lock.lockedUntil < now))
  | .markStale now lock rest =>
    if fault then (x, .idle) else (x.markSystemTaskLeaseExpired lock.taskID, .deleteStale now lock rest)
  | .deleteStale now lock rest =>
    if fault then (x, .idle)
    else ({ x with locks := x.locks.deleteWhere (SystemTaskLock.stale now lock) }, .sweep now rest)
  | .finish taskID outcome result errorMessage now =>
    match if fault then none
      else x.tasks.updateIf taskID (x.guarded t.runner now) (SystemTask.finish outcome result errorMessage now) with
    | none => (x, .idle)
    | some tasks => ({ x with tasks }, .releaseFinished taskID)
  | .releaseFinished taskID => (if fault then x else x.releaseSystemTaskLock taskID t.runner, .idle)

/-! ## Threads -/

inductive Call
  | createSystemTask (taskID type payload state : String)
  | claimSystemTask (taskID type : String) (lockUntil : ℤ)
  | updateSystemTaskState (taskID state : String)
  | renewSystemTaskLock (taskID : String) (lockUntil : ℤ)
  | expireStaleSystemTaskLocks
  | finishSystemTask (taskID : String) (outcome : Outcome) (result errorMessage : String)
  deriving Repr, DecidableEq

/-- Where a call begins.  Only the runner's own thread makes claims. -/
def Thread.begin (t : Thread) (now : ℤ) : Call → Place
  | .createSystemTask taskID type payload state => .create taskID type payload state now
  | .claimSystemTask taskID type lockUntil =>
    if t.worker = none then .find { taskID, type, now, lockUntil } else .idle
  | .updateSystemTaskState taskID state => .updateState taskID state now
  | .renewSystemTaskLock taskID lockUntil => .renew taskID now lockUntil
  | .expireStaleSystemTaskLocks => .findStale now
  | .finishSystemTask taskID outcome result errorMessage => .finish taskID outcome result errorMessage now

/-- A thread begins a call when it has none, sends its next statement, or crashes; meanwhile time passes. -/
inductive Act
  | call (c : Call)
  | next (fault : Bool)
  | crash
  | tick (d : ℕ)
  deriving Repr, DecidableEq

def act (x : Store) (p : Place) : Thread × Act → Store × Place
  | (t, .call c) =>
    match p with
    | .idle => (x, t.begin x.clock c)
    | p => (x, p)
  | (t, .next fault) => statement x t fault p
  | (_, .crash) => (x, .idle)
  | (_, .tick d) => ({ x with clock := x.clock + d }, p)

abbrev Tasks := System Thread Store Place

def step (s : Tasks) (a : Thread × Act) : Tasks := move act s (a.1, a)

/-- All threads are about to begin. -/
def opening (x : Store) : Tasks := ⟨x, fun _ => .idle⟩

end OneApi.SystemTasks
