import OneApi.Auth.Limits
import OneApi.Auth.SessionCache

/-!
# Renewing a Mini Program session

`RenewMiniAppUserSession` replaces a session by a successor.  It publishes the fence of the prior session,
replaces it in a transaction, publishes the tombstone and puts the successor into the cache.  What it does
to the prior session are steps of `SessionCache` on the prior's row and key, and what it does to the
successor are steps of `SessionCache` on the successor's; the transaction joins the two.  Without Redis the
cache is left alone.

Any number of renewals of one session run here at once, and any number of cached reads of it.  The
transaction is one step: it locks the prior's row, and its update asks again for what it read.  The rest of
the system (logins, changes of a user, the entries of other sessions, a successor that is revoked) is
whatever the environment makes it.
-/

namespace OneApi.Auth.Renewal

open OneApi.Lib OneApi.Lib.Run OneApi.Lib.Procs OneApi.Auth.SessionCache

structure Config where
  redisEnabled : Bool
  cache : SessionCache.Settings
  issuanceLimit : ℕ
  issuanceWindow : ℤ
  priorSID : String

inductive Call
  | read
  | renew (userId : ℤ) (successor : UserSession)
  deriving Repr, DecidableEq

/-- What a renewal has returned. -/
inductive Result
  | running
  | failed (error : SessionError)
  | succeeded (session : UserSession)
  deriving Repr, DecidableEq

/-- Where a call stands with the prior session, and then with its successor. -/
structure Proc where
  call : Call
  prior : Phase := .start
  successor : Phase := .start
  result : Result := .running
  deriving Repr, DecidableEq

def Proc.fail (p : Proc) (phase : Phase) (error : SessionError) : Proc :=
  { p with prior := phase, result := .failed error }

/-- The prior session, the sessions that replaced it, and all others. -/
structure Shared where
  prior : Store
  successors : List UserSession := []
  others : List UserSession
  users : ℤ → Option UserBase
  keys : String → Option Key

/-- The rows of `user_sessions`. -/
def Shared.rows (x : Shared) : List UserSession :=
  x.prior.row.toList ++ x.successors ++ x.others

/-- A successor's row and key. -/
def Shared.storeOf (x : Shared) (sid : String) : Store :=
  ⟨x.prior.clock, x.successors.find? fun s => s.sid = sid, x.keys sid⟩

/-- A call takes its next step, or something else happens. -/
inductive Action
  | next (ok : Bool)
  | tick (nanoseconds : ℕ)
  | outside (others : List UserSession) (users : ℤ → Option UserBase) (keys : String → Option Key)
  | revoke (sid : String) (now : ℤ) (reason : String)

/-! ## Without Redis -/

/-- The next step of a call when Redis is not enabled: no entry is read or written. -/
def nextWithoutRedis (cfg : SessionCache.Settings) (x : Store) (p : SessionCache.Proc) (ok : Bool) :
    Store × SessionCache.Proc :=
  match p.phase with
  | .start => begin x p false
  | .inserted session | .observed _ session => (x, p.to (.returned session))
  | .denied _ => (x, p.to (.failed .inactive))
  | .candidate session now => (x, p.to (.fenced session now))
  | .revokedRow _ _ => (x, p.to .finalized)
  | _ => SessionCache.next cfg x p ok

section Steps

variable (cfg : Config)

def cacheNext (x : Store) (p : SessionCache.Proc) (ok : Bool) : Store × SessionCache.Proc :=
  if cfg.redisEnabled then SessionCache.next cfg.cache x p ok
  else nextWithoutRedis cfg.cache x p ok

/-! ## The renewal -/

/-- The checks that a renewal begins with. -/
def isValid (userId : ℤ) (successor : UserSession) (now : ℤ) : Bool :=
  cfg.priorSID ≠ "" && successor.userId = userId && successor.loginMethod = miniAppLoginMethod &&
    Limits.isValid successor now

/-- The successor as it is inserted. -/
def newSession (successor : UserSession) (now : ℤ) : UserSession :=
  Limits.withTimes
    { successor with
      version := if successor.version ≤ 0 then 1 else successor.version
      status := .active
      revokedAt := 0
      revokedReason := "" } now

def limitReached (x : Shared) (userId now : ℤ) : Bool :=
  cfg.issuanceLimit ≤ x.rows.countP (Limits.isIssued userId (now - cfg.issuanceWindow))

def Shared.hasUser (x : Shared) (userId authVersion : ℤ) : Bool :=
  (x.users userId).any fun user => user.enabled && user.authVersion = authVersion

def Shared.isTaken (x : Shared) (sid : String) : Bool := x.rows.any fun s => s.sid = sid

/-- Why the transaction of a renewal is rolled back, if no statement fails. -/
def refusal (x : Shared) (userId : ℤ) (successor : UserSession) (now : ℤ) : Option SessionError :=
  if !x.prior.row.any (Limits.isRenewable userId now) then some .inactive
  else if x.users userId = none then some .database
  else if !x.hasUser userId successor.userAuthVersion then some .inactive
  else if limitReached cfg x userId now then some .issuanceLimit
  else if x.isTaken successor.sid then some .database
  else none

/-- What a call does to the prior session is a step of `SessionCache`. -/
def Proc.onPrior (p : Proc) : SessionCache.Proc :=
  match p.call with
  | .read => ⟨.get, p.prior⟩
  | .renew userId _ => ⟨.renewPrior userId, p.prior⟩

/-- And so is what it does to its successor. -/
def Proc.onSuccessor (p : Proc) (session : UserSession) : SessionCache.Proc :=
  ⟨.renewSuccessor session, p.successor⟩

def transaction (x : Shared) (p : Proc) (userId : ℤ) (successor : UserSession)
    (session : UserSession) (now : ℤ) (ok : Bool) : Shared × Proc :=
  if !ok then (x, p.fail (.failed .database) .database)
  else
    match refusal cfg x userId successor now with
    | some error => (x, p.fail (.failed .database) error)
    | none =>
      let r := revokeRow x.prior p.onPrior session now true
      ({ x with prior := r.1, successors := x.successors ++ [newSession successor now] },
        { p with prior := r.2.phase, successor := .inserted (newSession successor now) })

/-- A step on the prior session; a statement that fails ends the renewal with its own error. -/
def stepPrior (x : Shared) (p : Proc) (ok : Bool) : Shared × Proc :=
  let r := cacheNext cfg x.prior p.onPrior ok
  match r.2.phase with
  | .failed error =>
    ({ x with prior := r.1 }, p.fail r.2.phase (if ok then error else .database))
  | phase => ({ x with prior := r.1 }, { p with prior := phase })

/-- What the phase of the successor means for the renewal. -/
def resultOf : Phase → Result
  | .returned session => .succeeded session
  | .failed error => .failed error
  | _ => .running

/-- A step on the successor, whose row is in the table already. -/
def stepSuccessor (x : Shared) (p : Proc) (successor : UserSession) (ok : Bool) : Shared × Proc :=
  let r := cacheNext cfg (x.storeOf successor.sid) (p.onSuccessor successor) ok
  ({ x with keys := Function.update x.keys successor.sid r.1.key },
    { p with successor := r.2.phase, result := resultOf r.2.phase })

/-- `RenewMiniAppUserSession`, step by step. -/
def renewNext (x : Shared) (p : Proc) (userId : ℤ) (successor : UserSession) (ok : Bool) : Shared × Proc :=
  match p.result, p.prior with
  | .running, .start =>
    if isValid cfg userId successor (unix x.prior.clock) then stepPrior cfg x p ok
    else (x, p.fail .start .invalid)
  | .running, .fenced session now => transaction cfg x p userId successor session now ok
  | .running, .succeeded | .running, .unfinalized => stepSuccessor cfg x p successor ok
  | .running, _ => stepPrior cfg x p ok
  | _, _ => (x, p)

/-- `GetUserSessionCached` of the prior session. -/
def readNext (x : Shared) (p : Proc) (ok : Bool) : Shared × Proc :=
  let r := cacheNext cfg x.prior p.onPrior ok
  ({ x with prior := r.1 }, { p with prior := r.2.phase })

def next (x : Shared) (p : Proc) (ok : Bool) : Shared × Proc :=
  match p.call with
  | .read => readNext cfg x p ok
  | .renew userId successor => renewNext cfg x p userId successor ok

def act (x : Shared) (p : Proc) : Action → Shared × Proc
  | .next ok => next cfg x p ok
  | .tick nanoseconds =>
    ({ x with prior := { x.prior with clock := x.prior.clock + nanoseconds } }, p)
  | .outside others users keys => ({ x with others := others, users := users, keys := keys }, p)
  | .revoke sid now reason =>
    ({ x with
        successors := x.successors.map fun s => if s.sid = sid then setRevoked now reason s else s },
      p)

/-- Calls that have not begun; the session has not been replaced. -/
def opening {ι : Type*} (x : Shared) (calls : ι → Call) : System ι Shared Proc :=
  ⟨{ x with successors := [] }, fun i => { call := calls i }⟩

end Steps

end OneApi.Auth.Renewal
