import OneApi.Auth.Session
import OneApi.Lib.Go
import OneApi.Lib.Procs

/-!
# The limits of login sessions

A user may have so many active sessions, and may be issued so many within a window of time.  A login
counts the user's sessions and inserts one more, in statements of their own; the renewal of a Mini Program
session counts and replaces a session in a transaction.  Any number of both run here at once, on any number
of nodes with one clock and one database.  Row locks are left out (they are no-ops on SQLite, and no login
takes one): what they allow is among the interleavings here.  What follows an insert (the cache, the
tokens) inserts nothing, and the cleanups only delete rows that have left the window.

The counts of a login or renewal say nothing about sessions inserted after them.  As long as none is, the
limits hold (`sessions_within_limits`).  To say so, the store keeps how many sessions each user was ever
given, and a call keeps that number from its first count, or from its start if it is a renewal.
-/

namespace OneApi.Auth.Limits

open OneApi.Lib OneApi.Lib.Run OneApi.Lib.Procs OneApi.Lib.Go Function

/-- The settings; times are in seconds. -/
structure Settings where
  activeLimit : ℕ
  issuanceLimit : ℕ
  issuanceWindow : ℤ
  sessionTTL : ℤ
  accessTokenTTL : ℤ

inductive Kind
  | login (expectedAuthVersion : ℤ) (loginMethod : String)
  | miniApp
  | renewal (priorSID : String)
  deriving Repr, DecidableEq

/-- A login or renewal, with the id and the secret's digest of the session it makes. -/
structure Call where
  userId : ℤ
  sid : String
  refreshHash : String
  kind : Kind
  deriving Repr, DecidableEq

/-- Where a call stands.  `seen` is the number of sessions the user had been given. -/
inductive Phase
  | start
  | begun (now authVersion : ℤ)
  | countedActive (now authVersion : ℤ) (seen : ℕ)
  | countedIssued (now authVersion : ℤ) (seen : ℕ)
  | validated (session : UserSession) (seen : ℕ)
  | entered (session : UserSession) (now : ℤ) (seen : ℕ)
  | fenced (session : UserSession) (now : ℤ) (seen : ℕ)
  | locked (session : UserSession) (now : ℤ) (seen : ℕ)
  | issued
  | failed (error : SessionError)
  deriving Repr, DecidableEq

structure Proc where
  call : Call
  phase : Phase := .start
  deriving Repr, DecidableEq

def Proc.to (p : Proc) (phase : Phase) : Proc := { p with phase := phase }

structure Store where
  clock : ℤ
  sessions : Sessions
  inserted : ℤ → ℕ := fun _ => 0

/-- The next step of a call, with what it meets, or a step of the rest of the system: time passes, and
sessions are revoked. -/
inductive Action
  | begin (user : UserBase) (ok : Bool)
  | count (ok : Bool)
  | enter (ok : Bool)
  | fence (ok : Bool)
  | lock (user : UserBase) (ok : Bool)
  | insert (ok : Bool)
  | tick (seconds : ℕ)
  | revoke (sid reason : String)
  deriving Repr, DecidableEq

/-! ## The counts -/

def isActive (userId now : ℤ) (s : UserSession) : Bool :=
  s.userId = userId && s.status = .active && s.expiresAt > now

def isIssued (userId createdAfter : ℤ) (s : UserSession) : Bool :=
  s.userId = userId && s.createdAt > createdAfter

def activeCount (sessions : Sessions) (userId now : ℤ) : ℕ :=
  sessions.rows.countP (isActive userId now)

/-- Every issued row counts, whatever its status. -/
def issuedCount (sessions : Sessions) (userId createdAfter : ℤ) : ℕ :=
  sessions.rows.countP (isIssued userId createdAfter)

def countActiveUserSessions (clock : ℤ) (sessions : Sessions) (userId now : ℤ) : Except SessionError ℕ :=
  if userId ≤ 0 then .error .invalid
  else .ok (activeCount sessions userId (if now ≤ 0 then clock else now))

/-- The user id zero asks for the sessions of all users. -/
def countUserSessionsCreatedSince (sessions : Sessions) (userId createdAfter : ℤ) : Except SessionError ℕ :=
  if userId < 0 ∨ createdAfter ≤ 0 then .error .invalid
  else if 0 < userId then .ok (issuedCount sessions userId createdAfter)
  else .ok (sessions.rows.countP fun s => s.createdAt > createdAfter)

/-! ## The steps -/

section Steps

variable (cfg : Settings)

/-- What is wrong with the user, before anything is counted. -/
def checkUser (user : UserBase) : Kind → Option SessionError
  | .login expectedAuthVersion _ =>
    if !user.enabled || user.authVersion ≤ 0 then some .invalid
    else if 0 < expectedAuthVersion ∧ user.authVersion ≠ expectedAuthVersion then some .revoked
    else none
  | .miniApp =>
    if 30 * 60 < cfg.accessTokenTTL then some .invalid
    else if !user.enabled || user.authVersion ≤ 0 then some .invalid
    else none
  | .renewal _ => if !user.enabled || user.authVersion ≤ 0 then some .ownership else none

def Kind.loginMethod : Kind → String
  | .login _ loginMethod => if trimSpace loginMethod = "" then "unknown" else trimSpace loginMethod
  | .miniApp => miniAppLoginMethod
  | .renewal _ => miniAppLoginMethod

/-- The session that a call makes. -/
def Call.session (call : Call) (now authVersion : ℤ) : UserSession where
  sid := call.sid
  userId := call.userId
  userAuthVersion := authVersion
  refreshHash := call.refreshHash
  loginMethod := call.kind.loginMethod
  createdAt := now
  lastActiveAt := now
  expiresAt := now + cfg.sessionTTL

/-- The checks that `CreateUserSession` and `RenewMiniAppUserSession` begin with. -/
def isValid (session : UserSession) (now : ℤ) : Bool :=
  session.sid ≠ "" && session.userId > 0 && session.userAuthVersion > 0 && session.refreshHash ≠ "" &&
    session.expiresAt > now

/-- Times that are not set are now. -/
def withTimes (session : UserSession) (now : ℤ) : UserSession :=
  { session with
    createdAt := if session.createdAt = 0 then now else session.createdAt
    lastActiveAt := if session.lastActiveAt = 0 then now else session.lastActiveAt }

/-- The row that a renewal may replace. -/
def isRenewable (userId now : ℤ) (session : UserSession) : Bool :=
  session.userId = userId && session.loginMethod = miniAppLoginMethod && session.isUsable now

def Store.insert (x : Store) (session : UserSession) (sessions : Sessions) : Store :=
  { x with
    sessions := sessions
    inserted := update x.inserted session.userId (x.inserted session.userId + 1) }

/-- The conditional update of a renewal. -/
def replacePrior (sessions : Sessions) (userId now : ℤ) (priorSID : String) : Sessions :=
  sessions.updateWhere (fun s => s.sid = priorSID && isRenewable userId now s)
    (setRevoked now "miniapp_renewed") (setRevoked_sid now "miniapp_renewed")

def begin (x : Store) (p : Proc) (user : UserBase) (ok : Bool) : Proc :=
  match p.phase with
  | .start =>
    if !ok then p.to (.failed .database)
    else
      match checkUser cfg user p.call.kind with
      | some e => p.to (.failed e)
      | none => p.to (.begun x.clock user.authVersion)
  | _ => p

/-- The two counts of a login. -/
def count (x : Store) (p : Proc) (ok : Bool) : Proc :=
  match p.phase, p.call.kind with
  | .begun _ _, .renewal _ => p
  | .begun now authVersion, _ =>
    match countActiveUserSessions x.clock x.sessions p.call.userId now with
    | .error e => p.to (.failed e)
    | .ok n =>
      if !ok then p.to (.failed .database)
      else if cfg.activeLimit ≤ n then p.to (.failed .limit)
      else p.to (.countedActive now authVersion (x.inserted p.call.userId))
  | .countedActive now authVersion seen, _ =>
    match countUserSessionsCreatedSince x.sessions p.call.userId (now - cfg.issuanceWindow) with
    | .error e => p.to (.failed e)
    | .ok n =>
      if !ok then p.to (.failed .database)
      else if cfg.issuanceLimit ≤ n then p.to (.failed .issuanceLimit)
      else p.to (.countedIssued now authVersion seen)
  | _, _ => p

/-- A call makes its session and enters `CreateUserSession` or `RenewMiniAppUserSession`, which read the
clock again. -/
def enter (x : Store) (p : Proc) (ok : Bool) : Proc :=
  match p.phase, p.call.kind with
  | .countedIssued now authVersion seen, _ =>
    let session := p.call.session cfg now authVersion
    if !ok then p.to (.failed .database)
    else if isValid session x.clock then p.to (.validated (withTimes session x.clock) seen)
    else p.to (.failed .invalid)
  | .begun now authVersion, .renewal priorSID =>
    let session := p.call.session cfg now authVersion
    if !ok then p.to (.failed .database)
    else if trimSpace priorSID ≠ "" ∧ isValid session x.clock then
      p.to (.entered (withTimes session x.clock) x.clock (x.inserted p.call.userId))
    else p.to (.failed .invalid)
  | _, _ => p

/-- A renewal reads the prior session and publishes the fence. -/
def fence (x : Store) (p : Proc) (ok : Bool) : Proc :=
  match p.phase, p.call.kind with
  | .entered session now seen, .renewal priorSID =>
    if !(x.sessions.find (trimSpace priorSID)).any (isRenewable p.call.userId now) then
      p.to (.failed .ownership)
    else if ok then p.to (.fenced session now seen)
    else p.to (.failed .database)
  | _, _ => p

/-- The reads of the transaction of a renewal. -/
def lock (x : Store) (p : Proc) (user : UserBase) (ok : Bool) : Proc :=
  match p.phase, p.call.kind with
  | .fenced session now seen, .renewal priorSID =>
    if !(x.sessions.find (trimSpace priorSID)).any (isRenewable p.call.userId now) then
      p.to (.failed .ownership)
    else if !ok then p.to (.failed .database)
    else if !user.enabled || user.authVersion ≠ session.userAuthVersion then
      p.to (.failed .ownership)
    else if cfg.issuanceLimit ≤
        issuedCount x.sessions p.call.userId (now - cfg.issuanceWindow) then
      p.to (.failed .issuanceLimit)
    else p.to (.locked session now seen)
  | _, _ => p

/-- The insert of a login, and the writes of a renewal with its commit. -/
def insert (x : Store) (p : Proc) (ok : Bool) : Store × Proc :=
  match p.phase, p.call.kind with
  | .validated session _, _ =>
    match x.sessions.insert session with
    | none => (x, p.to (.failed .database))
    | some sessions =>
      if ok then (x.insert session sessions, p.to .issued)
      else (x, p.to (.failed .database))
  | .locked session now _, .renewal priorSID =>
    match x.sessions.insert session with
    | none => (x, p.to (.failed .database))
    | some sessions =>
      if !(sessions.find (trimSpace priorSID)).any (isRenewable p.call.userId now) then
        (x, p.to (.failed .ownership))
      else if ok then
        (x.insert session (replacePrior sessions p.call.userId now (trimSpace priorSID)), p.to .issued)
      else (x, p.to (.failed .database))
  | _, _ => (x, p)

/-- One step; one that the call is not ready for does nothing. -/
def act (x : Store) (p : Proc) : Action → Store × Proc
  | .begin user ok => (x, begin cfg x p user ok)
  | .count ok => (x, count cfg x p ok)
  | .enter ok => (x, enter cfg x p ok)
  | .fence ok => (x, fence x p ok)
  | .lock user ok => (x, lock cfg x p user ok)
  | .insert ok => insert x p ok
  | .tick seconds => ({ x with clock := x.clock + seconds }, p)
  | .revoke sid reason =>
    ({ x with
        sessions := x.sessions.updateWhere (fun s => s.sid = sid) (setRevoked x.clock reason)
          (setRevoked_sid x.clock reason) }, p)

end Steps

/-! ## What a step does to the counts -/

variable {userId now later : ℤ}

theorem isActive_anti (h : now ≤ later) {s : UserSession} (hs : isActive userId later s) : isActive userId now s := by
  simp only [isActive, Bool.and_eq_true, decide_eq_true_eq] at hs ⊢
  exact ⟨hs.1, lt_of_le_of_lt h hs.2⟩

theorem activeCount_anti (sessions : Sessions) (h : now ≤ later) :
    activeCount sessions userId later ≤ activeCount sessions userId now :=
  List.countP_mono_left fun _ _ => isActive_anti h

theorem issuedCount_anti (sessions : Sessions) {since : ℤ} (h : since ≤ later) :
    issuedCount sessions userId later ≤ issuedCount sessions userId since := by
  apply List.countP_mono_left
  intro s _ hs
  simp only [isIssued, Bool.and_eq_true, decide_eq_true_eq] at hs ⊢
  exact ⟨hs.1, lt_of_le_of_lt h hs.2⟩

theorem isActive_setRevoked (userId now revokedAt : ℤ) (reason : String) (s : UserSession) :
    ¬ isActive userId now (setRevoked revokedAt reason s) := by
  simp [isActive, setRevoked]

/-- The user is given no session: no count of theirs goes up, and the clock does not go back. -/
structure Quiet (userId : ℤ) (x y : Store) : Prop where
  clock : x.clock ≤ y.clock
  inserted : y.inserted userId = x.inserted userId
  active : ∀ now, activeCount y.sessions userId now ≤ activeCount x.sessions userId now
  issued : ∀ since, issuedCount y.sessions userId since ≤ issuedCount x.sessions userId since

/-- The user is given one session: their counts go up by one at most. -/
structure Grants (userId : ℤ) (x y : Store) : Prop where
  clock : y.clock = x.clock
  inserted : y.inserted userId = x.inserted userId + 1
  active : ∀ now, activeCount y.sessions userId now ≤ activeCount x.sessions userId now + 1
  issued : ∀ since, issuedCount y.sessions userId since ≤ issuedCount x.sessions userId since + 1
  others : ∀ u, u ≠ userId → Quiet u x y

variable {sessions : Sessions} {session : UserSession}

/-- An inserted row adds one to the counts of its user, and nothing to those of others. -/
theorem countP_insert {sessions' : Sessions} (h : sessions.insert session = some sessions') (q : UserSession → Bool) :
    sessions'.rows.countP q = sessions.rows.countP q + if q session then 1 else 0 := by
  rw [Table.insert_rows h, List.countP_append, List.countP_singleton]

theorem isActive_of_ne {u : ℤ} (h : u ≠ session.userId) : isActive u now session = false := by
  simp [isActive, h.symm]

theorem isIssued_of_ne {u since : ℤ} (h : u ≠ session.userId) : isIssued u since session = false := by
  simp [isIssued, h.symm]

variable {x : Store} (h : x.sessions.insert session = some sessions)

include h in
theorem grants_insert :
    Grants session.userId x (x.insert session sessions) where
  clock := rfl
  inserted := update_self ..
  active now := by
    rw [activeCount, activeCount, Store.insert, countP_insert h]
    split <;> omega
  issued since := by
    rw [issuedCount, issuedCount, Store.insert, countP_insert h]
    split <;> omega
  others u hu :=
    { clock := le_rfl
      inserted := update_of_ne hu ..
      active := fun now => by
        rw [activeCount, activeCount, Store.insert, countP_insert h, isActive_of_ne hu]
        simp
      issued := fun since => by
        rw [issuedCount, issuedCount, Store.insert, countP_insert h, isIssued_of_ne hu]
        simp }

theorem activeCount_replacePrior_le (sessions : Sessions) (userId now : ℤ) (sid : String) (u t : ℤ) :
    activeCount (replacePrior sessions userId now sid) u t ≤ activeCount sessions u t :=
  Table.countP_updateWhere_le fun s hs => (isActive_setRevoked u t now _ s hs).elim

theorem issuedCount_replacePrior_le (sessions : Sessions) (userId now : ℤ) (sid : String) (u since : ℤ) :
    issuedCount (replacePrior sessions userId now sid) u since ≤ issuedCount sessions u since :=
  Table.countP_updateWhere_le fun _ hs => hs

include h in
theorem grants_replace (userId now : ℤ) (sid : String) :
    Grants session.userId x (x.insert session (replacePrior sessions userId now sid)) := by
  have hins := grants_insert h
  have hactive := activeCount_replacePrior_le sessions userId now sid
  have hissued := issuedCount_replacePrior_le sessions userId now sid
  refine ⟨rfl, hins.inserted, fun t => (hactive _ t).trans (hins.active t),
    fun since => (hissued _ since).trans (hins.issued since), fun u hu => ?_⟩
  have hquiet := hins.others u hu
  exact ⟨le_rfl, hquiet.inserted, fun t => (hactive u t).trans (hquiet.active t),
    fun since => (hissued u since).trans (hquiet.issued since)⟩

theorem isActive_of_isRenewable {s : UserSession} (h : isRenewable userId now s) : isActive userId now s := by
  simp only [isRenewable, UserSession.isUsable, isActive, Bool.and_eq_true, decide_eq_true_eq] at h ⊢
  exact ⟨⟨h.1.1, h.2.1.1⟩, h.2.2⟩

include h in
/-- The prior session makes room for its successor. -/
theorem activeCount_replace {sid : String}
    (hprior : (sessions.find sid).any (isRenewable userId now)) (huser : session.userId = userId) :
    activeCount (replacePrior sessions userId now sid) userId now ≤
      activeCount x.sessions userId now := by
  obtain ⟨prior, hfind, hrenew⟩ := (Option.any_eq_true _ _).mp hprior
  have hlt : activeCount (replacePrior sessions userId now sid) userId now <
      activeCount sessions userId now := by
    apply Table.countP_updateWhere_lt _ (Table.find_mem hfind)
    · rw [hrenew, Table.find_key hfind]
      simp
    · exact isActive_of_isRenewable hrenew
    · exact isActive_setRevoked userId now now _ prior
    · exact fun s hs => (isActive_setRevoked userId now now _ s hs).elim
  have hins : activeCount sessions userId now ≤ activeCount x.sessions userId now + 1 :=
    huser ▸ (grants_insert h).active now
  omega

/-! ## Calls that are not disturbed -/

section Runs

variable (cfg : Settings)

/-- The user is within both limits. -/
def WithinFor (x : Store) (userId : ℤ) : Prop :=
  activeCount x.sessions userId x.clock ≤ cfg.activeLimit ∧
    issuedCount x.sessions userId (x.clock - cfg.issuanceWindow) ≤ cfg.issuanceLimit

def Within (x : Store) : Prop := ∀ userId, WithinFor cfg x userId

/-- What a call had seen whose next step gives the user a session. -/
def Phase.ready? : Phase → Option ℕ
  | .validated _ seen | .locked _ _ seen => some seen
  | _ => none

/-- The step that gives the user a session comes before anybody else gave them one since the call
counted, or since the renewal began. -/
def Undisturbed (x : Store) (p : Proc) : Action → Prop
  | .insert _ => ∀ seen ∈ p.phase.ready?, x.inserted p.call.userId = seen
  | _ => True

instance (x : Store) (p : Proc) : (a : Action) → Decidable (Undisturbed x p a)
  | .insert _ => inferInstanceAs (Decidable (∀ seen ∈ p.phase.ready?, x.inserted p.call.userId = seen))
  | .begin _ _ | .count _ | .enter _ | .fence _ | .lock _ _ | .tick _ | .revoke _ _ =>
    inferInstanceAs (Decidable True)

/-- There is room for one more active session of the user. -/
def ActiveRoom (x : Store) (userId : ℤ) : Prop :=
  activeCount x.sessions userId x.clock < cfg.activeLimit

def IssuedRoom (x : Store) (userId : ℤ) : Prop :=
  issuedCount x.sessions userId (x.clock - cfg.issuanceWindow) < cfg.issuanceLimit

/-- The active sessions were within the limit when the renewal began. -/
def BeganWithin (x : Store) (userId now : ℤ) : Prop :=
  activeCount x.sessions userId now ≤ cfg.activeLimit

/-- The time a call goes by. -/
def Phase.now? : Phase → Option ℤ
  | .begun now _ | .countedActive now _ _ | .entered _ now _ | .fenced _ now _ | .locked _ now _ =>
    some now
  | _ => none

def Phase.session? : Phase → Option UserSession
  | .validated session _ | .entered session _ _ | .fenced session _ _ | .locked session _ _ =>
    some session
  | _ => none

def Phase.seen? : Phase → Option ℕ
  | .countedActive _ _ seen | .countedIssued _ _ seen | .validated _ seen | .entered _ _ seen
  | .fenced _ _ seen | .locked _ _ seen => some seen
  | _ => none

/-- What a call has found out, which stands until its user is given another session. -/
def Phase.Knows (x : Store) (userId : ℤ) : Phase → Prop
  | .countedActive _ _ _ => ActiveRoom cfg x userId
  | .countedIssued _ _ _ | .validated _ _ => ActiveRoom cfg x userId ∧ IssuedRoom cfg x userId
  | .entered _ now _ | .fenced _ now _ => BeganWithin cfg x userId now
  | .locked _ now _ => BeganWithin cfg x userId now ∧ IssuedRoom cfg x userId
  | _ => True

/-- What holds of a call beside the store. -/
structure Relies (x : Store) (p : Proc) : Prop where
  time : ∀ now, p.phase.now? = some now → now ≤ x.clock
  user : ∀ session, p.phase.session? = some session → session.userId = p.call.userId
  seen : ∀ seen, p.phase.seen? = some seen → seen ≤ x.inserted p.call.userId
  knows : p.phase.seen? = some (x.inserted p.call.userId) → p.phase.Knows cfg x p.call.userId

variable {cfg} {x y : Store} {userId : ℤ}

theorem ActiveRoom.quiet (h : Quiet userId x y) (hx : ActiveRoom cfg x userId) : ActiveRoom cfg y userId :=
  ((activeCount_anti y.sessions h.clock).trans (h.active x.clock)).trans_lt hx

theorem issuedCount_quiet (h : Quiet userId x y) :
    issuedCount y.sessions userId (y.clock - cfg.issuanceWindow) ≤
      issuedCount x.sessions userId (x.clock - cfg.issuanceWindow) :=
  (issuedCount_anti y.sessions (sub_le_sub_right h.clock _)).trans (h.issued _)

theorem IssuedRoom.quiet (h : Quiet userId x y) (hx : IssuedRoom cfg x userId) : IssuedRoom cfg y userId :=
  (issuedCount_quiet h).trans_lt hx

theorem WithinFor.quiet (h : Quiet userId x y) (hx : WithinFor cfg x userId) : WithinFor cfg y userId :=
  ⟨((activeCount_anti y.sessions h.clock).trans (h.active x.clock)).trans hx.1, (issuedCount_quiet h).trans hx.2⟩

/-- Room for one more before a session is given leaves the user within the limits. -/
theorem WithinFor.grants (h : Grants userId x y) (hissued : IssuedRoom cfg x userId)
    (hactive : activeCount y.sessions userId y.clock ≤ cfg.activeLimit) : WithinFor cfg y userId := by
  refine ⟨hactive, ?_⟩
  rw [h.clock]
  exact (h.issued _).trans hissued

theorem Phase.Knows.quiet (h : Quiet userId x y) {phase : Phase} (hp : phase.Knows cfg x userId) :
    phase.Knows cfg y userId := by
  cases phase with
  | countedActive => exact ActiveRoom.quiet h hp
  | countedIssued | validated => exact ⟨hp.1.quiet h, hp.2.quiet h⟩
  | entered _ now | fenced _ now => exact (h.active now).trans hp
  | locked _ now => exact ⟨(h.active now).trans hp.1, hp.2.quiet h⟩
  | start | begun | issued | failed => trivial

variable {p : Proc}

/-- A step that gives the user nothing leaves what a call of theirs relies on. -/
theorem Relies.quiet (h : Quiet p.call.userId x y) (hp : Relies cfg x p) :
    Relies cfg y p where
  time now hnow := (hp.time now hnow).trans h.clock
  user := hp.user
  seen n hn := h.inserted ▸ hp.seen n hn
  knows hseen := (hp.knows (h.inserted ▸ hseen)).quiet h

/-- A step that gives the user a session makes what the other calls of theirs know stale. -/
theorem Relies.grants (h : Grants userId x y) (hp : Relies cfg x p) : Relies cfg y p := by
  by_cases hu : p.call.userId = userId
  · have hinserted : y.inserted p.call.userId = x.inserted p.call.userId + 1 := hu ▸ h.inserted
    refine ⟨fun now hnow => h.clock ▸ hp.time now hnow, hp.user, fun n hn => ?_, fun hseen => ?_⟩
    · have := hp.seen n hn
      omega
    · have := hp.seen _ hseen
      omega
  · exact hp.quiet (h.others _ hu)

/-- A call that has counted nothing relies on the time it goes by. -/
theorem Relies.of_unseen (htime : ∀ now, p.phase.now? = some now → now ≤ x.clock)
    (hsession : p.phase.session? = none) (hseen : p.phase.seen? = none) : Relies cfg x p where
  time := htime
  user := forall_of_eq_none hsession
  seen := forall_of_eq_none hseen
  knows h := by
    rw [hseen] at h
    cases h

/-- A call moves on with the number it has seen, and knows what it knew before and what it has just found
out. -/
theorem Relies.advance {old phase : Phase} (hp : Relies cfg x p) (hphase : p.phase = old)
    (htime : ∀ now, phase.now? = some now → old.now? = some now)
    (huser : ∀ session, phase.session? = some session → session.userId = p.call.userId)
    (hseen : phase.seen? = old.seen?)
    (hknows : old.Knows cfg x p.call.userId → phase.Knows cfg x p.call.userId) : Relies cfg x (p.to phase) := by
  subst hphase
  exact ⟨fun now hnow => hp.time now (htime now hnow), huser, fun n hn => hp.seen n (hseen ▸ hn),
    fun h => hknows (hp.knows (hseen ▸ h))⟩

theorem Relies.failed (p : Proc) (e : SessionError) : Relies cfg x (p.to (.failed e)) :=
  .of_unseen (forall_of_eq_none rfl) rfl rfl

theorem Relies.issued (p : Proc) : Relies cfg x (p.to .issued) :=
  .of_unseen (forall_of_eq_none rfl) rfl rfl

theorem activeRoom_of_count {n : ℕ} (hnow : now ≤ x.clock)
    (hcount : countActiveUserSessions x.clock x.sessions userId now = .ok n) (hn : ¬ cfg.activeLimit ≤ n) :
    ActiveRoom cfg x userId := by
  rw [countActiveUserSessions] at hcount
  split at hcount
  · cases hcount
  · cases hcount
    have htime : (if now ≤ 0 then x.clock else now) ≤ x.clock := by
      split
      · exact le_rfl
      · exact hnow
    exact (activeCount_anti x.sessions htime).trans_lt (not_le.mp hn)

/-- The count for all users is no smaller than the one for a user. -/
theorem issuedCount_le_of_count {since : ℤ} {n : ℕ}
    (hcount : countUserSessionsCreatedSince x.sessions userId since = .ok n) :
    issuedCount x.sessions userId since ≤ n := by
  rw [countUserSessionsCreatedSince] at hcount
  split at hcount
  · cases hcount
  split at hcount
  · cases hcount
    exact le_rfl
  · cases hcount
    apply List.countP_mono_left
    intro s _ hs
    simp only [isIssued, Bool.and_eq_true] at hs
    exact hs.2

theorem issuedRoom_of_lt (hnow : now ≤ x.clock)
    (h : issuedCount x.sessions userId (now - cfg.issuanceWindow) < cfg.issuanceLimit) : IssuedRoom cfg x userId :=
  (issuedCount_anti x.sessions (sub_le_sub_right hnow _)).trans_lt h

section Calls

variable {p : Proc}

theorem begin_relies (hp : Relies cfg x p) (user : UserBase) (ok : Bool) : Relies cfg x (begin cfg x p user ok) := by
  rw [begin]
  split
  · split
    · exact .failed p _
    split
    · exact .failed p _
    · exact .of_unseen (forall_of_eq_some rfl le_rfl) rfl rfl
  · exact hp

theorem count_relies (hp : Relies cfg x p) (ok : Bool) : Relies cfg x (count cfg x p ok) := by
  rw [count]
  split
  · exact hp
  · next now authVersion hphase _ =>
    have hnow : now ≤ x.clock := hp.time now (by rw [hphase]; rfl)
    split
    · exact .failed p _
    · next n hcount =>
      split
      · exact .failed p _
      split
      · exact .failed p _
      · next hlimit =>
        exact ⟨forall_of_eq_some rfl hnow, forall_of_eq_none rfl, forall_of_eq_some rfl le_rfl,
          fun _ => activeRoom_of_count hnow hcount hlimit⟩
  · next now authVersion seen hphase =>
    have hnow : now ≤ x.clock := hp.time now (by rw [hphase]; rfl)
    split
    · exact .failed p _
    · next n hcount =>
      split
      · exact .failed p _
      split
      · exact .failed p _
      · next hlimit =>
        have hissued : IssuedRoom cfg x p.call.userId :=
          issuedRoom_of_lt hnow ((issuedCount_le_of_count hcount).trans_lt (not_le.mp hlimit))
        exact hp.advance hphase (forall_of_eq_none rfl) (forall_of_eq_none rfl) rfl fun hactive => ⟨hactive, hissued⟩
  · exact hp

theorem enter_relies (hx : Within cfg x) (hp : Relies cfg x p) (ok : Bool) : Relies cfg x (enter cfg x p ok) := by
  rw [enter]
  split
  · next now authVersion seen hphase =>
    dsimp only
    split
    · exact .failed p _
    split
    · exact hp.advance hphase (forall_of_eq_none rfl) (forall_of_eq_some rfl rfl) rfl id
    · exact .failed p _
  · dsimp only
    split
    · exact .failed p _
    split
    · exact ⟨forall_of_eq_some rfl le_rfl, forall_of_eq_some rfl rfl, forall_of_eq_some rfl le_rfl,
        fun _ => (hx p.call.userId).1⟩
    · exact .failed p _
  · exact hp

theorem fence_relies (hp : Relies cfg x p) (ok : Bool) : Relies cfg x (fence x p ok) := by
  rw [fence]
  split
  · next session now seen priorSID hphase _ =>
    split
    · exact .failed p _
    split
    · exact hp.advance hphase (fun _ => id) (fun s hs => hp.user s (by rw [hphase]; exact hs)) rfl id
    · exact .failed p _
  · exact hp

theorem lock_relies (hp : Relies cfg x p) (user : UserBase) (ok : Bool) : Relies cfg x (lock cfg x p user ok) := by
  rw [lock]
  split
  · next session now seen priorSID hphase _ =>
    split
    · exact .failed p _
    split
    · exact .failed p _
    split
    · exact .failed p _
    split
    · exact .failed p _
    · next hlimit =>
      have hnow : now ≤ x.clock := hp.time now (by rw [hphase]; rfl)
      have hissued : IssuedRoom cfg x p.call.userId := issuedRoom_of_lt hnow (not_le.mp hlimit)
      exact hp.advance hphase (fun _ => id) (fun s hs => hp.user s (by rw [hphase]; exact hs)) rfl
        fun hbegan => ⟨hbegan, hissued⟩
  · exact hp

/-- The insert does nothing, or gives the user a session; one that is not disturbed keeps them within the limits. -/
theorem insert_effect (hp : Relies cfg x p) (ok : Bool) :
    (insert x p ok).1 = x ∧ Relies cfg x (insert x p ok).2 ∨
      Grants p.call.userId x (insert x p ok).1 ∧ Relies cfg (insert x p ok).1 (insert x p ok).2 ∧
        (Undisturbed x p (.insert ok) → WithinFor cfg (insert x p ok).1 p.call.userId) := by
  rw [insert]
  split
  · next session seen hphase =>
    have huser := hp.user session (by rw [hphase]; rfl)
    split
    · exact .inl ⟨rfl, .failed p _⟩
    · next sessions hins =>
      split
      · have hgrants : Grants p.call.userId x (x.insert session sessions) := huser ▸ grants_insert hins
        refine .inr ⟨hgrants, .issued p, fun hundisturbed => ?_⟩
        have hseen : x.inserted p.call.userId = seen := hundisturbed seen (by rw [hphase]; rfl)
        have hroom := hp.knows (by rw [hphase, hseen]; rfl)
        rw [hphase] at hroom
        exact .grants hgrants hroom.2 ((hgrants.active _).trans hroom.1)
      · exact .inl ⟨rfl, .failed p _⟩
  · next session now seen priorSID hphase _ =>
    have huser := hp.user session (by rw [hphase]; rfl)
    split
    · exact .inl ⟨rfl, .failed p _⟩
    · next sessions hins =>
      split
      · exact .inl ⟨rfl, .failed p _⟩
      · next hprior =>
        split
        · have hgrants := grants_replace hins p.call.userId now (trimSpace priorSID)
          rw [huser] at hgrants
          refine .inr ⟨hgrants, .issued p, fun hundisturbed => ?_⟩
          have hnow : now ≤ x.clock := hp.time now (by rw [hphase]; rfl)
          have hseen : x.inserted p.call.userId = seen := hundisturbed seen (by rw [hphase]; rfl)
          have hroom := hp.knows (by rw [hphase, hseen]; rfl)
          rw [hphase] at hroom
          -- the prior session was active when the renewal began, if not any more
          have hreplace := activeCount_replace hins (by simpa using hprior) huser
          exact .grants hgrants hroom.2 ((activeCount_anti _ hnow).trans (hreplace.trans hroom.1))
        · exact .inl ⟨rfl, .failed p _⟩
  · exact .inl ⟨rfl, hp⟩

theorem insert_self (hx : Within cfg x) (hp : Relies cfg x p) {ok : Bool}
    (hundisturbed : Undisturbed x p (.insert ok)) :
    Within cfg (insert x p ok).1 ∧ Relies cfg (insert x p ok).1 (insert x p ok).2 := by
  rcases insert_effect hp ok with ⟨hsame, hrelies⟩ | ⟨hgrants, hrelies, hwithin⟩
  · rw [hsame]
    exact ⟨hx, hrelies⟩
  · refine ⟨fun u => ?_, hrelies⟩
    by_cases hu : u = p.call.userId
    · exact hu ▸ hwithin hundisturbed
    · exact (hx u).quiet (hgrants.others u hu)

end Calls

theorem quiet_tick (seconds : ℕ) : Quiet userId x { x with clock := x.clock + seconds } :=
  ⟨by simp, rfl, fun _ => le_rfl, fun _ => le_rfl⟩

theorem quiet_revoke (sid reason : String) : Quiet userId x
      { x with
        sessions := x.sessions.updateWhere (fun s => s.sid = sid) (setRevoked x.clock reason)
          (setRevoked_sid x.clock reason) } where
  clock := le_rfl
  inserted := rfl
  active now :=
    Table.countP_map_ite_le (fun s hs => (isActive_setRevoked userId now x.clock reason s hs).elim) x.sessions.rows
  issued since :=
    Table.countP_map_ite_le (q := isIssued userId since) (f := setRevoked x.clock reason)
      (fun _ hs => hs) x.sessions.rows

/-- A step of a call keeps what holds of the store and of the call. -/
theorem act_self {a : Action} (hundisturbed : Undisturbed x p a) (hx : Within cfg x) (hp : Relies cfg x p) :
    Within cfg (act cfg x p a).1 ∧ Relies cfg (act cfg x p a).1 (act cfg x p a).2 := by
  cases a with
  | begin user ok => exact ⟨hx, begin_relies hp user ok⟩
  | count ok => exact ⟨hx, count_relies hp ok⟩
  | enter ok => exact ⟨hx, enter_relies hx hp ok⟩
  | fence ok => exact ⟨hx, fence_relies hp ok⟩
  | lock user ok => exact ⟨hx, lock_relies hp user ok⟩
  | insert ok => exact insert_self hx hp hundisturbed
  | tick seconds =>
    exact ⟨fun u => (hx u).quiet (quiet_tick seconds), hp.quiet (quiet_tick seconds)⟩
  | revoke sid reason =>
    exact ⟨fun u => (hx u).quiet (quiet_revoke sid reason), hp.quiet (quiet_revoke sid reason)⟩

/-- And it keeps what holds of every other call. -/
theorem act_other {p q : Proc} (a : Action) (hp : Relies cfg x p) (hq : Relies cfg x q) :
    Relies cfg (act cfg x p a).1 q := by
  cases a with
  | begin | count | enter | fence | lock => exact hq
  | insert ok =>
    rw [act]
    rcases insert_effect hp ok with ⟨hsame, -⟩ | ⟨hgrants, -⟩
    · rw [hsame]
      exact hq
    · exact hq.grants hgrants
  | tick seconds => exact hq.quiet (quiet_tick seconds)
  | revoke sid reason => exact hq.quiet (quiet_revoke sid reason)

variable {ι : Type*} [DecidableEq ι]

theorem holds_move {s : System ι Store Proc} {a : ι × Action}
    (hundisturbed : Undisturbed s.shared (s.proc a.1) a.2) (h : Holds (Within cfg) (Relies cfg) s) :
    Holds (Within cfg) (Relies cfg) (move (act cfg) s a) :=
  h.move (act_self hundisturbed) fun _ _ => act_other a.2 (h.proc a.1)

/-- Calls that have not begun. -/
def opening (x : Store) (calls : ι → Call) : System ι Store Proc := ⟨x, fun i => ⟨calls i, .start⟩⟩

/-- **The limits of sessions.**  In every interleaving of any number of logins and renewals, in which no
session is given to a user between the first count of a login of theirs, or the start of a renewal, and its
own insert, every user stays within both limits. -/
theorem sessions_within_limits (cfg : Settings) (x : Store) (hx : Within cfg x) (calls : ι → Call)
    (acts : List (ι × Action)) (hundisturbed : Respects (move (act cfg))
      (fun s a => Undisturbed s.shared (s.proc a.1) a.2) (opening x calls) acts) :
    Within cfg (run (move (act cfg)) (opening x calls) acts).shared := by
  have hopening : Holds (Within cfg) (Relies cfg) (opening x calls) :=
    ⟨hx, fun _ => .of_unseen (forall_of_eq_none rfl) rfl rfl⟩
  exact (run_preserves_of_respects (fun _ _ hC h => holds_move hC h) hundisturbed hopening).shared

end Runs

/-- One active session a user, and a life of thirty days. -/
def oneActive : Settings where
  activeLimit := 1
  issuanceLimit := 100
  issuanceWindow := 24 * 60 * 60
  sessionTTL := 30 * 24 * 60 * 60
  accessTokenTTL := 15 * 60

/-- Nobody is logged in. -/
def loggedOut : Store where
  clock := 1700000000
  sessions := .empty

theorem loggedOut_within : Within oneActive loggedOut :=
  fun _ => ⟨Nat.zero_le _, Nat.zero_le _⟩

/-- Two logins of user 1. -/
def twoLogins : Two → Call
  | .first => ⟨1, "s1", "h1", .login 0 "password"⟩
  | .second => ⟨1, "s2", "h2", .login 0 "password"⟩

def loginSteps : List Action :=
  [.begin ⟨true, 1⟩ true, .count true, .count true, .enter true, .insert true]

def oneAfterTheOther : List (Two × Action) :=
  loginSteps.map (Two.first, ·) ++ loginSteps.map (Two.second, ·)

/-- Both logins take each step before either takes the next. -/
def sideBySide : List (Two × Action) :=
  loginSteps.flatMap fun a => [(Two.first, a), (Two.second, a)]

theorem sessions_within_limits_one_after_the_other :
    Respects (move (act oneActive)) (fun s a => Undisturbed s.shared (s.proc a.1) a.2)
        (opening loggedOut twoLogins) oneAfterTheOther ∧
      Within oneActive (run (move (act oneActive)) (opening loggedOut twoLogins) oneAfterTheOther).shared :=
  ⟨by decide +kernel, sessions_within_limits oneActive loggedOut loggedOut_within twoLogins
    oneAfterTheOther (by decide +kernel)⟩

/-- Two logins side by side give the user two active sessions where one is allowed. -/
theorem sessions_beyond_limit :
    Within oneActive loggedOut ∧
      activeCount (run (move (act oneActive)) (opening loggedOut twoLogins) sideBySide).shared.sessions
        1 1700000000 = 2 :=
  ⟨loggedOut_within, by decide +kernel⟩

end OneApi.Auth.Limits
