import OneApi.SystemTasks.Model

/-!
# What a lease guarantees

`Effect` says what a move can do to the tables, with the guard of the statement that does it; every result
below is a case analysis over it.  No time a thread carries is ahead of the clock (`timely_after`), so what a
statement takes for expired has expired, while what it takes for unexpired was so when its call began.

* `Effect.writes` — the state and the result of a task are written under a lock of the writer;
* `Effect.rank_le` — a task goes from pending to running to its end, and never back;
* `Effect.keeps_lock` — a lock that has not expired is only touched by its own runner.
-/

namespace OneApi.SystemTasks

open OneApi.Lib OneApi.Lib.Run OneApi.Lib.Procs

/-- What a move of a thread at a place can do to the store. -/
inductive Effect (t : Thread) (x : Store) (p : Place) : Store → Prop
  | quiet : Effect t x p x
  | tick (d : ℕ) : Effect t x p { x with clock := x.clock + d }
  | create {task : SystemTask} {tasks : Table SystemTask SystemTask.taskID}
      (hpending : task.status = .pending) (hinsert : x.tasks.insert task = some tasks) :
      Effect t x p { x with tasks }
  | start {c : Claim} {task : SystemTask} (hp : p = .start c) (hid : task.taskID = c.taskID)
      (hfind : x.tasks.find task.taskID = some task) (htype : task.type = c.type)
      (hpending : task.status = .pending) :
      Effect t x p { x with tasks := x.tasks.save (task.run c.now t.runner) }
  | setState {state : String} {now : ℤ} {task : SystemTask} (hp : p = .updateState task.taskID state now)
      (hfind : x.tasks.find task.taskID = some task) (hguard : x.guarded t.runner now task = true) :
      Effect t x p { x with tasks := x.tasks.save (task.setState now state) }
  | expire {task : SystemTask} (hfind : x.tasks.find task.taskID = some task)
      (hrunning : task.status = .running) :
      Effect t x p { x with tasks := x.tasks.save (task.expire x.clock) }
  | finish {outcome : Outcome} {result errorMessage : String} {now : ℤ} {task : SystemTask}
      (hp : p = .finish task.taskID outcome result errorMessage now)
      (hfind : x.tasks.find task.taskID = some task) (hguard : x.guarded t.runner now task = true) :
      Effect t x p { x with tasks := x.tasks.save (task.finish outcome result errorMessage now) }
  | lock {c : Claim} {locks : Table SystemTaskLock SystemTaskLock.type} (hp : p = .lock c)
      (hinsert : x.locks.insert (c.systemTaskLock t.runner) = some locks) : Effect t x p { x with locks }
  | takeOver {c : Claim} {expiredTaskID : String} {old : SystemTaskLock} (hp : p = .takeOver c expiredTaskID)
      (hfind : x.locks.find c.type = some old) (hold : old.lockedUntil < c.now) :
      Effect t x p { x with locks := x.locks.save (c.systemTaskLock t.runner) }
  | renew {taskID : String} {now lockUntil : ℤ} (hp : p = .renew taskID now lockUntil) :
      Effect t x p (x.renewSystemTaskLock taskID t.runner now lockUntil)
  | release {taskID : String} (hp : (∃ c, p = .release c ∧ c.taskID = taskID) ∨ p = .releaseFinished taskID) :
      Effect t x p (x.releaseSystemTaskLock taskID t.runner)
  | delete {now : ℤ} {lock : SystemTaskLock} {rest : List SystemTaskLock}
      (hp : p = .deleteStale now lock rest) :
      Effect t x p { x with locks := x.locks.deleteWhere (SystemTaskLock.stale now lock) }

variable {now : ℤ}

section Effects

variable {t : Thread} {x x' : Store} {p : Place}

variable {task : SystemTask}

theorem insertTask_effect (hpending : task.status = .pending) : Effect t x p (x.insertTask task) := by
  rw [Store.insertTask]
  split
  · exact .quiet
  · split
    · exact .quiet
    · next tasks hinsert => exact .create hpending hinsert

theorem markSystemTaskLeaseExpired_effect (taskID : String) : Effect t x p (x.markSystemTaskLeaseExpired taskID) := by
  rw [Store.markSystemTaskLeaseExpired]
  split
  · exact .quiet
  · next tasks htasks =>
    obtain ⟨task, hfind, hrunning, rfl⟩ := Table.updateIf_eq_some htasks
    exact .expire (Table.find_of_mem (Table.find_mem hfind)) (of_decide_eq_true hrunning)

/-- A statement that may fail, and then affects no row. -/
theorem of_unless_fault {α : Type*} {fault : Bool} {o : Option α} {a : α}
    (h : (if fault then none else o) = some a) : o = some a := by
  cases fault with
  | true => cases h
  | false => exact h

/-- The time a call has read. -/
def Place.time : Place → Option ℤ
  | .idle => none
  | .create _ _ _ _ now => some now
  | .find c => some c.now
  | .lock c => some c.now
  | .existing c => some c.now
  | .takeOver c _ => some c.now
  | .markOld c _ => some c.now
  | .start c => some c.now
  | .release c => some c.now
  | .updateState _ _ now => some now
  | .renew _ now _ => some now
  | .findStale now => some now
  | .markStale now _ _ => some now
  | .deleteStale now _ _ => some now
  | .finish _ _ _ _ now => some now
  | .releaseFinished _ => none

/-- What a statement does to the store; the thread keeps the time it has read, or needs none any more. -/
structure Sends (t : Thread) (x : Store) (p : Place) (r : Store × Place) : Prop where
  effect : Effect t x p r.1
  time : r.2.time = none ∨ r.2.time = p.time

theorem Sends.stop : Sends t x p (x, .idle) := ⟨.quiet, .inl rfl⟩

theorem sweep_time (locks : List SystemTaskLock) :
    (Place.sweep now locks).time = none ∨ (Place.sweep now locks).time = some now := by
  cases locks with
  | nil => exact .inl rfl
  | cons lock rest => exact .inr rfl

theorem statement_sends (fault : Bool) : Sends t x p (statement x t fault p) := by
  cases p with
  | idle => exact .stop
  | create taskID type payload state now =>
    refine ⟨?_, .inl rfl⟩
    rw [statement]
    split
    · exact .quiet
    · exact insertTask_effect rfl
  | find c =>
    rw [statement]
    split
    · exact .stop
    · split
      · exact .stop
      · exact ⟨.quiet, .inr rfl⟩
  | lock c =>
    rw [statement]
    split
    · exact ⟨.quiet, .inr rfl⟩
    · next locks h => exact ⟨.lock rfl (of_unless_fault h), .inr rfl⟩
  | existing c =>
    rw [statement]
    split
    · exact .stop
    · split
      · exact .stop
      · next lock _ =>
        by_cases h : c.now ≤ lock.lockedUntil
        · rw [if_pos h]
          exact .stop
        · rw [if_neg h]
          exact ⟨.quiet, .inr rfl⟩
  | takeOver c expiredTaskID =>
    rw [statement]
    split
    · exact .stop
    · split
      · exact .stop
      · next locks hlocks =>
        obtain ⟨old, hfind, hold, rfl⟩ := Table.updateIf_eq_some hlocks
        refine ⟨.takeOver rfl hfind (of_decide_eq_true hold), .inr ?_⟩
        show (ite _ _ _ : Place).time = _
        split <;> rfl
  | markOld c expiredTaskID =>
    rw [statement]
    split
    · exact ⟨.quiet, .inr rfl⟩
    · exact ⟨markSystemTaskLeaseExpired_effect expiredTaskID, .inr rfl⟩
  | start c =>
    rw [statement]
    split
    · exact ⟨.quiet, .inr rfl⟩
    · next tasks h =>
      obtain ⟨task, hfind, hfound, rfl⟩ := Table.updateIf_eq_some (of_unless_fault h)
      have hboth := of_decide_eq_true hfound
      exact ⟨.start rfl (Table.find_key hfind) (Table.find_of_mem (Table.find_mem hfind)) hboth.1 hboth.2, .inl rfl⟩
  | release c =>
    refine ⟨?_, .inl rfl⟩
    rw [statement]
    split
    · exact .quiet
    · exact .release (.inl ⟨c, rfl, rfl⟩)
  | updateState taskID state now =>
    rw [statement]
    split
    · exact .stop
    · next tasks h =>
      obtain ⟨task, hfind, hguard, rfl⟩ := Table.updateIf_eq_some (of_unless_fault h)
      obtain rfl := Table.find_key hfind
      exact ⟨.setState rfl hfind hguard, .inl rfl⟩
  | renew taskID now lockUntil =>
    refine ⟨?_, .inl rfl⟩
    rw [statement]
    split
    · exact .quiet
    · exact .renew rfl
  | findStale now =>
    cases fault with
    | true => exact .stop
    | false => exact ⟨.quiet, sweep_time _⟩
  | markStale now lock rest =>
    rw [statement]
    split
    · exact .stop
    · exact ⟨markSystemTaskLeaseExpired_effect lock.taskID, .inr rfl⟩
  | deleteStale now lock rest =>
    rw [statement]
    split
    · exact .stop
    · exact ⟨.delete rfl, sweep_time rest⟩
  | finish taskID outcome result errorMessage now =>
    rw [statement]
    split
    · exact .stop
    · next tasks h =>
      obtain ⟨task, hfind, hguard, rfl⟩ := Table.updateIf_eq_some (of_unless_fault h)
      obtain rfl := Table.find_key hfind
      exact ⟨.finish rfl hfind hguard, .inl rfl⟩
  | releaseFinished taskID =>
    refine ⟨?_, .inl rfl⟩
    rw [statement]
    split
    · exact .quiet
    · exact .release (.inr rfl)

theorem act_call_fst (c : Call) : (act x p (t, .call c)).1 = x := by
  cases p <;> rfl

theorem act_effect (t : Thread) (x : Store) (p : Place) (a : Act) : Effect t x p (act x p (t, a)).1 := by
  cases a with
  | call c =>
    rw [act_call_fst]
    exact .quiet
  | next fault => exact (statement_sends fault).effect
  | crash => exact .quiet
  | tick d => exact .tick d

/-! ## What a move keeps -/

theorem Effect.clock_le (h : Effect t x p x') : x.clock ≤ x'.clock := by
  cases h with
  | tick d =>
    show x.clock ≤ x.clock + d
    omega
  | _ => exact le_refl x.clock

/-- How far a task has come. -/
def SystemTaskStatus.rank : SystemTaskStatus → ℕ
  | .pending => 0
  | .running => 1
  | .succeeded => 2
  | .failed => 2

theorem Outcome.rank_status (outcome : Outcome) : outcome.status.rank = 2 := by
  cases outcome <;> rfl

theorem guarded_running {runner : String}
    (h : x.guarded runner now task = true) : task.status = .running ∧ task.lockedBy = runner := by
  rw [Store.guarded, Bool.and_eq_true] at h
  exact of_decide_eq_true h.1

theorem guarded_lock {runner : String} (h : x.guarded runner now task = true) :
    ∃ lock ∈ x.locks.rows, lock.taskID = task.taskID ∧ lock.lockedBy = runner ∧ now ≤ lock.lockedUntil := by
  rw [Store.guarded, Bool.and_eq_true, Store.leased, List.any_eq_true] at h
  obtain ⟨lock, hlock, hnames⟩ := h.2
  rw [Bool.and_eq_true] at hnames
  have hboth := of_decide_eq_true hnames.1
  exact ⟨lock, hlock, hboth.1, hboth.2, of_decide_eq_true hnames.2⟩

variable {id : String} {written : SystemTask} {f : SystemTask → SystemTask}

variable (hid : (f written).taskID = written.taskID)

include hid in
/-- The row of a task after a write of the task's own row or of another one. -/
theorem find_save_cases (hwritten : x.tasks.find written.taskID = some written) (hfind : x.tasks.find id = some task) :
    (x.tasks.save (f written)).find id = some task ∨
      (task = written ∧ id = written.taskID ∧ (x.tasks.save (f written)).find id = some (f written)) := by
  by_cases h : id = written.taskID
  · right
    rw [h] at hfind ⊢
    refine ⟨Option.some.inj (hfind.symm.trans hwritten), rfl, ?_⟩
    rw [← hid]
    exact Table.find_save_self (hid ▸ hwritten)
  · left
    rw [Table.find_save_of_ne (by rw [hid]; exact h)]
    exact hfind

include hid in
theorem rank_save (hrank : written.status.rank ≤ (f written).status.rank)
    (hwritten : x.tasks.find written.taskID = some written) (hfind : x.tasks.find id = some task) :
    ∃ task', (x.tasks.save (f written)).find id = some task' ∧ task.status.rank ≤ task'.status.rank := by
  rcases find_save_cases hid hwritten hfind with hsame | ⟨rfl, -, hnew⟩
  · exact ⟨task, hsame, le_refl _⟩
  · exact ⟨f task, hnew, hrank⟩

/-- A task is never dropped, and never goes back. -/
theorem Effect.rank_le (h : Effect t x p x') (hfind : x.tasks.find id = some task) :
    ∃ task', x'.tasks.find id = some task' ∧ task.status.rank ≤ task'.status.rank := by
  cases h with
  | create hpending hinsert =>
    refine ⟨task, (Table.find_insert_of_ne hinsert fun e => ?_).trans hfind, le_refl _⟩
    rw [e, Table.find_eq_none_of_insert hinsert] at hfind
    cases hfind
  | @start c written hp hid hwritten htype hpending =>
    refine rank_save (f := SystemTask.run c.now t.runner) rfl ?_ hwritten hfind
    rw [hpending]
    exact Nat.zero_le _
  | @setState state now written hp hwritten hguard =>
    exact rank_save (f := SystemTask.setState now state) rfl (le_refl _) hwritten hfind
  | @expire written hwritten hrunning =>
    refine rank_save (f := SystemTask.expire x.clock) rfl ?_ hwritten hfind
    rw [hrunning]
    exact Nat.le_succ 1
  | @finish outcome result errorMessage now written hp hwritten hguard =>
    refine rank_save (f := SystemTask.finish outcome result errorMessage now) rfl ?_ hwritten hfind
    show written.status.rank ≤ outcome.status.rank
    rw [outcome.rank_status, (guarded_running hguard).1]
    exact Nat.le_succ 1
  | _ => exact ⟨task, hfind, le_refl _⟩

include hid in
/-- A write of a row that leaves its state and its result as they are. -/
theorem columns_save {task' : SystemTask} (hstate : (f written).state = written.state)
    (hresult : (f written).result = written.result) (hwritten : x.tasks.find written.taskID = some written)
    (hfind : x.tasks.find id = some task) (hfind' : (x.tasks.save (f written)).find id = some task') :
    task'.state = task.state ∧ task'.result = task.result := by
  rcases find_save_cases hid hwritten hfind with hother | ⟨rfl, -, hnew⟩
  · rw [hother] at hfind'
    rw [← Option.some.inj hfind']
    exact ⟨rfl, rfl⟩
  · rw [hnew] at hfind'
    rw [← Option.some.inj hfind']
    exact ⟨hstate, hresult⟩

/-- A move either leaves the state and the result of a task as they are, or a lock on the task names the
runner that moves, with an end not before the time the runner has read. -/
theorem Effect.writes (h : Effect t x p x')
    (hfind : x.tasks.find id = some task) (hfind' : x'.tasks.find id = some task') :
    (task'.state = task.state ∧ task'.result = task.result) ∨
      ∃ now, p.time = some now ∧ ∃ lock ∈ x.locks.rows, lock.taskID = id ∧ lock.lockedBy = t.runner
        ∧ now ≤ lock.lockedUntil := by
  have hsame : x'.tasks.find id = some task → task'.state = task.state ∧ task'.result = task.result := by
    intro h
    rw [h] at hfind'
    rw [Option.some.inj hfind']
    exact ⟨rfl, rfl⟩
  cases h with
  | create hpending hinsert =>
    refine .inl (hsame ((Table.find_insert_of_ne hinsert fun e => ?_).trans hfind))
    rw [e, Table.find_eq_none_of_insert hinsert] at hfind
    cases hfind
  | @start c written hp hid hwritten htype hpending =>
    exact .inl (columns_save (f := SystemTask.run c.now t.runner) rfl rfl rfl hwritten hfind hfind')
  | @setState state now written hp hwritten hguard =>
    rcases find_save_cases (f := SystemTask.setState now state) rfl hwritten hfind with
      hother | ⟨rfl, rfl, -⟩
    · exact .inl (hsame hother)
    · exact .inr ⟨now, by rw [hp]; rfl, guarded_lock hguard⟩
  | @expire written hwritten hrunning =>
    exact .inl (columns_save (f := SystemTask.expire x.clock) rfl rfl rfl hwritten hfind hfind')
  | @finish outcome result errorMessage now written hp hwritten hguard =>
    rcases find_save_cases (f := SystemTask.finish outcome result errorMessage now) rfl hwritten hfind
      with hother | ⟨rfl, rfl, -⟩
    · exact .inl (hsame hother)
    · exact .inr ⟨now, by rw [hp]; rfl, guarded_lock hguard⟩
  | _ => exact .inl (hsame hfind)

/-- A lock that has not expired is only touched by its own runner. -/
theorem Effect.keeps_lock (h : Effect t x p x') (htime : ∀ now, p.time = some now → now ≤ x.clock)
    {lock : SystemTaskLock} (hlock : lock ∈ x.locks.rows) (hunexpired : x.clock ≤ lock.lockedUntil)
    (hother : lock.lockedBy ≠ t.runner) : lock ∈ x'.locks.rows := by
  have hnames : ∀ taskID, lock.names taskID t.runner = false := fun taskID =>
    decide_eq_false fun hboth => hother hboth.2
  cases h with
  | lock hp hinsert =>
    show lock ∈ _
    rw [Table.insert_rows hinsert]
    exact List.mem_append_left _ hlock
  | @takeOver c expiredTaskID old hp hfind hold =>
    -- the row that is taken over has expired, so it is another one
    have hnow : c.now ≤ x.clock := htime c.now (by rw [hp]; rfl)
    have hne : lock.type ≠ c.type := by
      intro e
      rw [← e, Table.find_of_mem hlock] at hfind
      obtain rfl := Option.some.inj hfind
      omega
    exact Table.find_mem ((Table.find_save_of_ne (r := c.systemTaskLock t.runner) hne).trans (Table.find_of_mem hlock))
  | @renew taskID now lockUntil hp =>
    refine List.mem_map.mpr ⟨lock, hlock, ?_⟩
    simp only [hnames, Bool.false_and, Bool.false_eq_true, if_false]
  | @release taskID hp =>
    refine List.mem_filter.mpr ⟨hlock, ?_⟩
    rw [hnames]
    rfl
  | @delete now seen rest hp =>
    have hnow : now ≤ x.clock := htime now (by rw [hp]; rfl)
    have hstale : SystemTaskLock.stale now seen lock = false := by
      refine decide_eq_false fun hall => ?_
      have hexpired := hall.2.2.2
      omega
    refine List.mem_filter.mpr ⟨hlock, ?_⟩
    rw [hstale]
    rfl
  | _ => exact hlock

end Effects

/-! ## Whole runs -/

/-- No thread has read a time that is still to come. -/
def Timely (s : Tasks) : Prop := ∀ t now, (s.proc t).time = some now → now ≤ s.shared.clock

theorem begin_time (t : Thread) (c : Call) : (t.begin now c).time = none ∨ (t.begin now c).time = some now := by
  cases c with
  | claimSystemTask taskID type lockUntil =>
    rw [Thread.begin]
    split
    · exact .inr rfl
    · exact .inl rfl
  | _ => exact .inr rfl

/-- A move takes its time from the clock, or keeps the one it has. -/
theorem act_time (x : Store) (p : Place) (t : Thread) (a : Act)
    (h : (act x p (t, a)).2.time = some now) : now = x.clock ∨ p.time = some now := by
  cases a with
  | call c =>
    cases p with
    | idle =>
      rcases begin_time t c with hnone | hclock
      · exact absurd (hnone.symm.trans h) (by simp)
      · exact .inl (Option.some.inj (h.symm.trans hclock))
    | _ => exact .inr h
  | next fault =>
    rcases (statement_sends fault).time with hnone | hsame
    · exact absurd (hnone.symm.trans h) (by simp)
    · exact .inr (hsame.symm.trans h)
  | crash => cases h
  | tick d => exact .inr h

theorem timely_step {s : Tasks} (h : Timely s) (a : Thread × Act) : Timely (step s a) := by
  intro t now ht
  have hclock : s.shared.clock ≤ (step s a).shared.clock :=
    (act_effect a.1 s.shared (s.proc a.1) a.2).clock_le
  by_cases hself : t = a.1
  · rw [hself, step, move_self] at ht
    rcases act_time s.shared (s.proc a.1) a.1 a.2 ht with rfl | hbefore
    · exact hclock
    · exact le_trans (h a.1 now hbefore) hclock
  · rw [step, move_other act s (a.1, a) hself] at ht
    exact le_trans (h t now ht) hclock

/-- The system after the first `n` moves. -/
def after (x : Store) (acts : List (Thread × Act)) (n : ℕ) : Tasks := run step (opening x) (acts.take n)

theorem timely_after (x : Store) (acts : List (Thread × Act)) (n : ℕ) : Timely (after x acts n) := by
  refine run_preserves (I := Timely) (fun s a h => timely_step h a) _ ?_
  intro t now h
  cases h

/-- The status of a task. -/
def Store.statusOf (x : Store) (taskID : String) : Option SystemTaskStatus :=
  (x.tasks.find taskID).map SystemTask.status

/-- The runner holds the lock of a type, and the lock has not expired. -/
def Store.holds (x : Store) (type runner : String) : Prop :=
  ∃ lock, x.locks.find type = some lock ∧ lock.lockedBy = runner ∧ x.clock ≤ lock.lockedUntil

variable {taskID : String} {n : ℕ}

/-- How far a task has come is kept by every move. -/
theorem rank_step (s : Tasks) (a : Thread × Act)
    (h : ∃ status, s.shared.statusOf taskID = some status ∧ n ≤ status.rank) :
    ∃ status, (step s a).shared.statusOf taskID = some status ∧ n ≤ status.rank := by
  obtain ⟨status, hstatus, hn⟩ := h
  obtain ⟨task, hfind, rfl⟩ := Option.map_eq_some_iff.mp hstatus
  obtain ⟨task', hfind', hrank⟩ := (act_effect a.1 s.shared (s.proc a.1) a.2).rank_le hfind
  exact ⟨task'.status, Option.map_eq_some_iff.mpr ⟨task', hfind', rfl⟩, le_trans hn hrank⟩

variable {acts : List (Thread × Act)}

theorem rank_after {x : Store} {m : ℕ} (hnm : n ≤ m) {k : ℕ}
    (h : ∃ status, (after x acts n).shared.statusOf taskID = some status ∧ k ≤ status.rank) :
    ∃ status, (after x acts m).shared.statusOf taskID = some status ∧ k ≤ status.rank := by
  obtain ⟨rest, hrest⟩ := run_take_of_le step (opening x) acts hnm
  rw [after, hrest]
  exact run_preserves
    (I := fun s : Tasks => ∃ status, s.shared.statusOf taskID = some status ∧ k ≤ status.rank)
    (fun s a hs => rank_step s a hs) rest h

/-- A task that has left the running state does not come back to it. -/
theorem left_running {x : Store} {m k : ℕ} (hnm : n ≤ m) (hmk : m ≤ k)
    (hrunning : (after x acts n).shared.statusOf taskID = some .running)
    (hleft : (after x acts m).shared.statusOf taskID ≠ some .running) :
    (after x acts k).shared.statusOf taskID ≠ some .running := by
  obtain ⟨status, hstatus, hrank⟩ := rank_after (k := 1) hnm ⟨.running, hrunning, le_refl 1⟩
  have hended : 2 ≤ status.rank := by
    cases status with
    | pending => exact absurd hrank (by decide)
    | running => exact absurd hstatus hleft
    | succeeded | failed => exact le_refl 2
  obtain ⟨later, hlater, hlate⟩ := rank_after hmk ⟨status, hstatus, hended⟩
  intro hback
  rw [hback] at hlater
  rw [← Option.some.inj hlater] at hlate
  exact absurd hlate (by decide)

/-- **Leases are safe.**  In every state of every run: a move that changes the state or the result of a task is
made by a runner that a lock on the task names, and the lock ends no earlier than the time this runner has read
for the move; a task that was running and is not running any more will not be running again; one runner at
most holds an unexpired lock of a type; and no other runner touches a lock that has not expired. -/
theorem lease_safety (x : Store) (acts : List (Thread × Act)) (n : ℕ) :
    (∀ t a taskID task task', (after x acts n).shared.tasks.find taskID = some task →
        (step (after x acts n) (t, a)).shared.tasks.find taskID = some task' →
        (task'.state ≠ task.state ∨ task'.result ≠ task.result) →
        ∃ now ≤ (after x acts n).shared.clock, ((after x acts n).proc t).time = some now
          ∧ ∃ lock ∈ (after x acts n).shared.locks.rows, lock.taskID = taskID ∧ lock.lockedBy = t.runner
            ∧ now ≤ lock.lockedUntil)
      ∧ (∀ taskID m k, n ≤ m → m ≤ k → (after x acts n).shared.statusOf taskID = some .running →
          (after x acts m).shared.statusOf taskID ≠ some .running →
          (after x acts k).shared.statusOf taskID ≠ some .running)
      ∧ (∀ type runner runner', (after x acts n).shared.holds type runner →
          (after x acts n).shared.holds type runner' → runner = runner')
      ∧ (∀ t a lock, lock ∈ (after x acts n).shared.locks.rows →
          (after x acts n).shared.clock ≤ lock.lockedUntil → lock.lockedBy ≠ t.runner →
          lock ∈ (step (after x acts n) (t, a)).shared.locks.rows) := by
  have htimely := timely_after x acts n
  refine ⟨fun t a taskID task task' hfind hfind' hne => ?_, fun taskID m k hnm hmk => left_running hnm hmk,
    fun type runner runner' h h' => ?_, fun t a lock => ?_⟩
  · have heffect := act_effect t (after x acts n).shared ((after x acts n).proc t) a
    rcases heffect.writes hfind hfind' with ⟨hstate, hresult⟩ | ⟨now, hnow, hlock⟩
    · exact (hne.elim (fun h => h hstate) fun h => h hresult).elim
    · exact ⟨now, htimely t now hnow, hnow, hlock⟩
  · obtain ⟨lock, hlock, rfl, _⟩ := h
    obtain ⟨lock', hlock', rfl, _⟩ := h'
    rw [Option.some.inj (hlock.symm.trans hlock')]
  · exact (act_effect t (after x acts n).shared ((after x acts n).proc t) a).keeps_lock (htimely t)

/-- One pending task. -/
def cleanupStore : Store where
  tasks := Table.single { taskID := "systask_1", type := "log_cleanup", activeKey := some "log_cleanup" }
  locks := Table.empty
  clock := 0

/-- A runner claims the task until 60, and its handler reads the time for an update of the state, which it
sends a hundred seconds later. -/
def delayedUpdate : List (Thread × Act) :=
  [({ runner := "a" }, .call (.claimSystemTask "systask_1" "log_cleanup" 60)),
    ({ runner := "a" }, .next false), ({ runner := "a" }, .next false), ({ runner := "a" }, .next false),
    ({ runner := "a", worker := some 0 }, .call (.updateSystemTaskState "systask_1" "half done")),
    ({ runner := "a" }, .tick 100)]

/-- The state is written although every lock has expired. -/
theorem delayedUpdate_writes :
    (((run step (opening cleanupStore) delayedUpdate).shared.tasks.find "systask_1").map SystemTask.state,
      ((step (run step (opening cleanupStore) delayedUpdate)
        ({ runner := "a", worker := some 0 }, .next false)).shared.tasks.find "systask_1").map
          SystemTask.state) = (some "", some "half done")
      ∧ ∀ lock ∈ (run step (opening cleanupStore) delayedUpdate).shared.locks.rows,
          lock.lockedUntil < (run step (opening cleanupStore) delayedUpdate).shared.clock := by
  decide +kernel

end OneApi.SystemTasks
