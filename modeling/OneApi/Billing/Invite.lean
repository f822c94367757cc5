import OneApi.Lib.Procs
import Mathlib.Data.Rat.Defs

/-!
# Invitation rewards

`inviteUser` reads the row of the inviting user, adds the reward to the affiliate columns of what it
has read, and saves the whole row.  `IncreaseUserQuota` and `DecreaseUserQuota` change the quota of the
row in one statement; `TransferAffQuotaToQuota` reads and saves the row too, but under its lock, so it
is one step to the others.  Any number of these calls for one user run here at once.

A row that is saved brings back the columns as they were when it was read.  So every state the calls
pass through accounts for what the calls have done exactly when each `inviteUser` saves a row that is
still the one it has read (`balanced_iff_savesCurrent`).
-/

namespace OneApi.Billing.Invite

open OneApi.Lib.Run OneApi.Lib.Procs

/-- The columns of the user's row that the calls change. -/
structure Row where
  quota : ℤ
  affCount : ℤ
  affQuota : ℤ
  affHistoryQuota : ℤ
  deriving Repr, DecidableEq

/-- `QuotaForInviter` and `QuotaPerUnit`. -/
structure Settings where
  quotaForInviter : ℤ
  quotaPerUnit : ℚ

inductive CallError
  | negativeQuota
  | belowMinimum (minimum : ℤ)
  | insufficientAffQuota
  | database
  deriving Repr, DecidableEq

/-- The texts of the errors; `logQuota` is `logger.LogQuota`. -/
def CallError.message (logQuota : ℤ → String) : CallError → String
  | .negativeQuota => "quota 不能为负数！"
  | .belowMinimum minimum => "转移额度最小为" ++ logQuota minimum ++ "！"
  | .insufficientAffQuota => "邀请额度不足！"
  | .database => "database error"

/-- The calls for the user. -/
inductive Call
  | inviteUser
  | increaseUserQuota (quota : ℤ)
  | decreaseUserQuota (quota : ℤ)
  | transferAffQuotaToQuota (quota : ℤ)
  deriving Repr, DecidableEq

/-- A call has not begun, has read the row, or is over. -/
inductive Phase
  | start
  | read (user : Row)
  | done (result : Except CallError Unit)

structure Proc where
  call : Call
  phase : Phase := .start

/-- What `inviteUser` makes of the row it has read. -/
def rewarded (settings : Settings) (user : Row) : Row :=
  { user with
    affCount := user.affCount + 1
    affQuota := user.affQuota + settings.quotaForInviter
    affHistoryQuota := user.affHistoryQuota + settings.quotaForInviter }

/-- `UPDATE users SET quota = quota + ? WHERE id = ?`. -/
def addQuota (ok : Bool) (user : Row) (delta : ℤ) : Row × Except CallError Unit :=
  if ok then ({ user with quota := user.quota + delta }, .ok ()) else (user, .error .database)

/-- `TransferAffQuotaToQuota`, from its lock to its commit. -/
def transferAffQuotaToQuota (settings : Settings) (ok : Bool) (user : Row) (quota : ℤ) : Row × Except CallError Unit :=
  if (quota : ℚ) < settings.quotaPerUnit then
    (user, .error (.belowMinimum (settings.quotaPerUnit.num.tdiv settings.quotaPerUnit.den)))
  else if ¬ ok then (user, .error .database)
  else if user.affQuota < quota then (user, .error .insufficientAffQuota)
  else ({ user with affQuota := user.affQuota - quota, quota := user.quota + quota }, .ok ())

/-- The next statement of a call, which may fail. -/
def act (settings : Settings) (user : Row) (p : Proc) (ok : Bool) : Row × Proc :=
  match p.phase, p.call with
  | .start, .inviteUser =>
    if ok then (user, { p with phase := .read user })
    else (user, { p with phase := .done (.error .database) })
  | .read old, .inviteUser =>
    if ok then (rewarded settings old, { p with phase := .done (.ok ()) })
    else (user, { p with phase := .done (.error .database) })
  | .start, .increaseUserQuota quota =>
    if quota < 0 then (user, { p with phase := .done (.error .negativeQuota) })
    else ((addQuota ok user quota).1, { p with phase := .done (addQuota ok user quota).2 })
  | .start, .decreaseUserQuota quota =>
    if quota < 0 then (user, { p with phase := .done (.error .negativeQuota) })
    else ((addQuota ok user (-quota)).1, { p with phase := .done (addQuota ok user (-quota)).2 })
  | .start, .transferAffQuotaToQuota quota =>
    ((transferAffQuotaToQuota settings ok user quota).1,
      { p with phase := .done (transferAffQuotaToQuota settings ok user quota).2 })
  | _, _ => (user, p)

/-! ## What the calls account for -/

/-- What a call that succeeds does to a column. -/
structure Change where
  quota : ℤ := 0
  affCount : ℤ := 0
  affQuota : ℤ := 0
  affHistoryQuota : ℤ := 0
  deriving Repr, DecidableEq

def Call.change (settings : Settings) : Call → Change
  | .inviteUser =>
    { affCount := 1
      affQuota := settings.quotaForInviter
      affHistoryQuota := settings.quotaForInviter }
  | .increaseUserQuota quota => { quota }
  | .decreaseUserQuota quota => { quota := -quota }
  | .transferAffQuotaToQuota quota => { quota, affQuota := -quota }

/-- What a call has applied. -/
def applied (settings : Settings) (p : Proc) : Change :=
  match p.phase with
  | .done (.ok ()) => p.call.change settings
  | _ => {}

/-- **The row accounts for the calls**: every column is its first value and what the calls that have
succeeded did to it. -/
structure Balanced {ι : Type*} [Fintype ι] (settings : Settings) (start : Row) (s : System ι Row Proc) : Prop where
  quota : s.shared.quota = start.quota + total (fun p => (applied settings p).quota) s
  affCount : s.shared.affCount = start.affCount + total (fun p => (applied settings p).affCount) s
  affQuota : s.shared.affQuota = start.affQuota + total (fun p => (applied settings p).affQuota) s
  affHistoryQuota : s.shared.affHistoryQuota =
    start.affHistoryQuota + total (fun p => (applied settings p).affHistoryQuota) s

/-- **The row that is saved is the row as it is**: nothing has changed it since it was read. -/
def savesCurrent (user : Row) (p : Proc) (ok : Bool) : Prop :=
  match p.phase, p.call with
  | .read old, .inviteUser => ok = true → old = user
  | _, _ => True

instance (user : Row) (p : Proc) (ok : Bool) : Decidable (savesCurrent user p ok) := by
  unfold savesCurrent
  split <;> infer_instance

/-! ## One statement -/

section Statement

variable {settings : Settings} {user : Row} {p : Proc} {ok : Bool}

/-- A statement changes the row by what its call applies with it. -/
structure Accounts (settings : Settings) (user : Row) (p : Proc) (r : Row × Proc) : Prop where
  quota : r.1.quota + (applied settings p).quota = user.quota + (applied settings r.2).quota
  affCount : r.1.affCount + (applied settings p).affCount = user.affCount + (applied settings r.2).affCount
  affQuota : r.1.affQuota + (applied settings p).affQuota = user.affQuota + (applied settings r.2).affQuota
  affHistoryQuota : r.1.affHistoryQuota + (applied settings p).affHistoryQuota =
    user.affHistoryQuota + (applied settings r.2).affHistoryQuota

theorem accounts_same {p' : Proc} (h : applied settings p' = applied settings p) :
    Accounts settings user p (user, p') := by
  refine ⟨?_, ?_, ?_, ?_⟩
  all_goals rw [h]

theorem applied_of_start (h : p.phase = .start) : applied settings p = {} := by
  rw [applied, h]

theorem applied_of_read {old : Row} (h : p.phase = .read old) : applied settings p = {} := by
  rw [applied, h]

/-- A statement fails and leaves the row, or changes it as said. -/
def Applies (user : Row) (change : Change) (r : Row × Except CallError Unit) : Prop :=
  (r.1 = user ∧ ∃ e, r.2 = .error e) ∨
    (r.2 = .ok () ∧ r.1 = ⟨user.quota + change.quota, user.affCount + change.affCount,
      user.affQuota + change.affQuota, user.affHistoryQuota + change.affHistoryQuota⟩)

theorem addQuota_applies (delta : ℤ) : Applies user { quota := delta } (addQuota ok user delta) := by
  rw [addQuota]
  split
  · right
    simp only [add_zero]
    exact ⟨trivial, trivial⟩
  · exact .inl ⟨rfl, _, rfl⟩

theorem transferAffQuotaToQuota_applies (quota : ℤ) :
    Applies user { quota, affQuota := -quota } (transferAffQuotaToQuota settings ok user quota) := by
  rw [transferAffQuotaToQuota]
  split
  · exact .inl ⟨rfl, _, rfl⟩
  split
  · exact .inl ⟨rfl, _, rfl⟩
  split
  · exact .inl ⟨rfl, _, rfl⟩
  · right
    simp only [add_zero, sub_eq_add_neg]
    exact ⟨trivial, trivial⟩

/-- A call that is over after its only statement. -/
theorem accounts_done (hstart : p.phase = .start) {r : Row × Except CallError Unit}
    (h : Applies user (p.call.change settings) r) : Accounts settings user p (r.1, { p with phase := .done r.2 }) := by
  rcases h with ⟨hrow, e, herror⟩ | ⟨hok, hrow⟩
  · rw [hrow, herror]
    exact accounts_same (applied_of_start hstart).symm
  · rw [hok, hrow]
    refine ⟨?_, ?_, ?_, ?_⟩
    all_goals
      rw [applied_of_start hstart]
      exact add_zero _

/-- The save of `inviteUser` accounts for its reward exactly when it saves the row as it is. -/
theorem accounts_save_iff {old : Row} (hphase : p.phase = .read old) (hcall : p.call = .inviteUser) :
    Accounts settings user p (rewarded settings old, { p with phase := .done (.ok ()) }) ↔ old = user := by
  have hbefore : applied settings p = {} := applied_of_read hphase
  have hafter : applied settings { p with phase := .done (.ok ()) } =
      { affCount := 1
        affQuota := settings.quotaForInviter
        affHistoryQuota := settings.quotaForInviter } := by
    rw [applied, hcall]
    rfl
  constructor
  · intro h
    have hquota := h.quota
    have haffCount := h.affCount
    have haffQuota := h.affQuota
    have hhistory := h.affHistoryQuota
    simp only [hbefore, hafter, rewarded, add_zero] at hquota haffCount haffQuota hhistory
    obtain ⟨quota, affCount, affQuota, affHistoryQuota⟩ := old
    obtain ⟨quota', affCount', affQuota', affHistoryQuota'⟩ := user
    simp only [Row.mk.injEq]
    simp only at hquota haffCount haffQuota hhistory
    omega
  · intro h
    subst h
    refine ⟨?_, ?_, ?_, ?_⟩
    all_goals simp only [hbefore, hafter, rewarded, add_zero]

/-- A call of one statement changes the row by what it applies. -/
theorem start_accounts (hphase : p.phase = .start) : Accounts settings user p (act settings user p ok) := by
  have hsame : ∀ phase, applied settings { p with phase } = {} →
      Accounts settings user p (user, { p with phase }) := fun phase h =>
    accounts_same (h.trans (applied_of_start hphase).symm)
  rw [act, hphase]
  cases hcall : p.call with
  | inviteUser =>
    simp only [← hcall]
    split
    · exact hsame (.read user) rfl
    · exact hsame (.done _) rfl
  | increaseUserQuota quota =>
    simp only [← hcall]
    split
    · exact hsame (.done _) rfl
    · refine accounts_done hphase ?_
      rw [hcall]
      exact addQuota_applies quota
  | decreaseUserQuota quota =>
    simp only [← hcall]
    split
    · exact hsame (.done _) rfl
    · refine accounts_done hphase ?_
      rw [hcall]
      exact addQuota_applies (-quota)
  | transferAffQuotaToQuota quota =>
    simp only [← hcall]
    refine accounts_done hphase ?_
    rw [hcall]
    exact transferAffQuotaToQuota_applies quota

/-- **One statement of a call** changes the row by what it applies exactly when it is not the save of
a row that has changed. -/
theorem act_accounts_iff : Accounts settings user p (act settings user p ok) ↔ savesCurrent user p ok := by
  cases hphase : p.phase with
  | start =>
    refine iff_of_true (start_accounts hphase) ?_
    rw [savesCurrent, hphase]
    trivial
  | done result =>
    rw [act, savesCurrent, hphase]
    exact iff_of_true (accounts_same rfl) trivial
  | read old =>
    rw [act, savesCurrent, hphase]
    cases hcall : p.call with
    | inviteUser =>
      simp only [← hcall]
      split
      · rename_i hok
        rw [accounts_save_iff hphase hcall]
        exact (imp_iff_right hok).symm
      · rename_i hfailed
        refine iff_of_true (accounts_same ?_) fun hok => (hfailed hok).elim
        exact (applied_of_read hphase).symm
    | increaseUserQuota quota | decreaseUserQuota quota | transferAffQuotaToQuota quota =>
      exact iff_of_true (accounts_same rfl) trivial

end Statement

/-! ## Every interleaving -/

section Interleaving

variable {ι : Type*} [Fintype ι] [DecidableEq ι] {settings : Settings}

/-- **One step** of one call keeps the account exactly when it does not save a row that has changed. -/
theorem balanced_move_iff {start : Row} (s : System ι Row Proc) (a : ι × Bool) (h : Balanced settings start s) :
    Balanced settings start (move (act settings) s a) ↔ savesCurrent s.shared (s.proc a.1) a.2 := by
  have hquota := h.quota
  have haffCount := h.affCount
  have haffQuota := h.affQuota
  have hhistory := h.affHistoryQuota
  refine Iff.trans (b := Accounts settings s.shared (s.proc a.1) _) ?_ act_accounts_iff
  constructor
  · intro hnext
    have hquota' := hnext.quota
    have haffCount' := hnext.affCount
    have haffQuota' := hnext.affQuota
    have hhistory' := hnext.affHistoryQuota
    rw [total_move, move_shared] at hquota' haffCount' haffQuota' hhistory'
    refine ⟨?_, ?_, ?_, ?_⟩
    all_goals omega
  · intro haccounts
    have hquota' := haccounts.quota
    have haffCount' := haccounts.affCount
    have haffQuota' := haccounts.affQuota
    have hhistory' := haccounts.affHistoryQuota
    refine ⟨?_, ?_, ?_, ?_⟩
    all_goals
      rw [total_move, move_shared]
      omega

/-- Every call before its first statement. -/
def opening {ι : Type*} (start : Row) (calls : ι → Call) : System ι Row Proc :=
  ⟨start, fun i => { call := calls i }⟩

/-- **Invitation rewards and balances.**  For every interleaving of any number of invitations, quota
increases and decreases and transfers of one user, any of which may fail: in every state the calls
pass through, the quota is the first quota and the applied deltas, and the affiliate columns have
grown by one reward for each invitation that succeeded (less what was transferred), exactly when no
invitation saves a row that has changed since it read it. -/
theorem balanced_iff_savesCurrent (settings : Settings) (start : Row) (calls : ι → Call) (acts : List (ι × Bool)) :
    (∀ n, Balanced settings start (run (move (act settings)) (opening start calls) (acts.take n))) ↔
      Respects (move (act settings)) (fun s a => savesCurrent s.shared (s.proc a.1) a.2)
        (opening start calls) acts := by
  refine forall_take_iff_respects balanced_move_iff ?_
  have hzero : ∀ column : Change → ℤ, column {} = 0 →
      total (fun p => column (applied settings p)) (opening start calls) = 0 := by
    intro column hcolumn
    exact Finset.sum_eq_zero fun i _ => hcolumn
  refine ⟨?_, ?_, ?_, ?_⟩
  · rw [hzero Change.quota rfl]
    exact (add_zero _).symm
  · rw [hzero Change.affCount rfl]
    exact (add_zero _).symm
  · rw [hzero Change.affQuota rfl]
    exact (add_zero _).symm
  · rw [hzero Change.affHistoryQuota rfl]
    exact (add_zero _).symm

end Interleaving

/-- A reward of 50. -/
def fifty : Settings := ⟨50, 500000⟩

/-- An invitation next to another call, for a user with a quota of 100. -/
def invitationBeside (call : Call) : System Two Row Proc :=
  opening ⟨100, 0, 0, 0⟩ fun i => if i = .first then .inviteUser else call

/-- A decrease of the quota between the read and the save of an invitation is undone, and of two
invitations that read the same row one is not counted. -/
theorem savedRow_undoes :
    let charged := run (move (act fifty)) (invitationBeside (.decreaseUserQuota 30))
      [(.first, true), (.second, true), (.first, true)]
    let invited := run (move (act fifty)) (invitationBeside .inviteUser)
      [(.first, true), (.second, true), (.first, true), (.second, true)]
    (charged.shared.quota = 100 ∧ total (fun p => (applied fifty p).quota) charged = -30) ∧
      invited.shared = ⟨100, 1, 50, 50⟩ ∧ total (fun p => (applied fifty p).affCount) invited = 2 := by
  decide

end OneApi.Billing.Invite
