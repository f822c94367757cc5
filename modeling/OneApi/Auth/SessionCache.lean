import OneApi.Auth.Session
import OneApi.Lib.Procs

/-!
# The session cache

One login session: its row, and the Redis hash that snapshots of the row are kept in.  A snapshot that says
active carries a deadline, which is its time to live counted from a moment before the row was read or
written; it is refused where a tombstone or a later version is.  A revocation publishes a tombstone, revokes
the row and publishes the tombstone again.

Any number of calls run at once, step by step: cached reads, rotations of the refresh token, revocations,
and whatever else fills the cache (the creation of a session, its creation by a renewal, a change of its
versions).  All nodes and Redis go by one clock, in nanoseconds, which other steps may move on by any
amount between two steps of a call; Redis counts milliseconds.  The row is never deleted.
-/

namespace OneApi.Auth.SessionCache

open OneApi.Lib OneApi.Lib.Run OneApi.Lib.Procs

def millisecond : ℤ := 10 ^ 6

def second : ℤ := 10 ^ 9

/-- `UnixMilli`. -/
def ms (t : ℤ) : ℤ := t / millisecond

def unix (t : ℤ) : ℤ := t / second

/-- `userCacheTTLSeconds`, which is positive. -/
structure Settings where
  cacheTTL : ℤ
  cacheTTL_pos : 0 < cacheTTL

/-! ## The cache -/

/-- The hash of a session and the millisecond it expires at. -/
structure Key where
  entry : UserSession
  expiresAtMs : ℤ
  deriving Repr, DecidableEq

structure Store where
  clock : ℤ
  row : Option UserSession
  key : Option Key
  deriving Repr, DecidableEq

/-- What Redis has under the key: an expired key is gone. -/
def Store.live (x : Store) : Option UserSession :=
  (x.key.filter fun k => ms x.clock ≤ k.expiresAtMs).map Key.entry

/-- The digests are not cached. -/
def cacheEntry (session : UserSession) : UserSession :=
  { session with refreshHash := "", previousRefreshHash := "", previousValidUntil := 0 }

inductive Expiration
  | pexpireAt (ms : ℤ)
  | pexpire (ms : ℤ)
  deriving Repr, DecidableEq

inductive CacheError
  | invalid
  | stale
  | inactive
  deriving Repr, DecidableEq

section Writes

variable (cfg : Settings)

def deadline (captured : ℤ) : ℤ := captured + cfg.cacheTTL * second

/-- The time to live of a tombstone, in milliseconds. -/
def denyMilliseconds (now expiresAt : ℤ) : ℤ :=
  let ttl := min (expiresAt * second - now) (cfg.cacheTTL * second)
  let ttl := if ttl ≤ 0 then second else ttl
  if ttl / millisecond ≤ 0 then 1 else ttl / millisecond

def denyExpiration (now : ℤ) (session : UserSession) : Expiration :=
  .pexpire (denyMilliseconds cfg now session.expiresAt)

/-- `writeUserSessionCache` up to its script, which runs later. -/
def prepare (now : ℤ) (entry : UserSession) (cacheDeadline : Option ℤ) : Except CacheError Expiration :=
  if entry.status = .active then
    match cacheDeadline with
    | none => .error .invalid
    | some cacheDeadline =>
      if cacheDeadline - now ≤ 0 then .error .stale
      else if entry.expiresAt * second - now ≤ 0 then .error .inactive
      else if min cacheDeadline (entry.expiresAt * second) - now < millisecond then .error .stale
      else .ok (.pexpireAt (ms (min cacheDeadline (entry.expiresAt * second))))
  else .ok (denyExpiration cfg now entry)

/-- `PEXPIREAT` with a time that is over deletes the key. -/
def Store.put (x : Store) (entry : UserSession) : Expiration → Store
  | .pexpireAt t => { x with key := if t ≤ ms x.clock then none else some ⟨entry, t⟩ }
  | .pexpire d => { x with key := some ⟨entry, ms x.clock + d⟩ }

/-- Whether the script of `writeUserSessionCache` writes. -/
def Store.accepts (x : Store) (entry : UserSession) : Bool :=
  match x.live with
  | none => true
  | some current =>
    !(entry.status = .active && current.status ≠ .active) && !(current.version > entry.version)

end Writes

/-! ## The calls -/

inductive Call
  | get
  | rotate (userId : ℤ) (presentedHash nextHash : String) (now graceSeconds : ℤ)
  | revoke (userId : ℤ) (reason : String)
  | revokeByRefreshHash (presentedHash reason : String)
  | revokeAll (userId : ℤ) (excludedSID reason : String)
  | renewPrior (userId : ℤ)
  | create (session : UserSession)
  | renewSuccessor (session : UserSession)
  | advance (userId expectedVersion expectedAuthVersion nextAuthVersion : ℤ)
  deriving Repr, DecidableEq

/-- Where a call stands.  `captured` is the time a deadline counts from. -/
inductive Phase
  | start
  | hit (entry : UserSession)
  | missed
  | reading (captured : ℤ)
  | creating (captured : ℤ) (session : UserSession)
  | rotating (captured : ℤ) (attempts : ℕ)
  | matched (captured : ℤ) (attempts : ℕ) (session : UserSession)
  | inserted (session : UserSession)
  | observed (captured : ℤ) (session : UserSession)
  | filling (captured : ℤ) (session : UserSession) (expiration : Expiration)
  | filled (captured : ℤ) (session : UserSession)
  | confirming (session : UserSession)
  | returned (session : UserSession)
  | seeking (now : ℤ)
  | candidate (session : UserSession) (now : ℤ)
  | fencing (session : UserSession) (now : ℤ) (expiration : Expiration)
  | fenced (session : UserSession) (now : ℤ)
  | revokedRow (session : UserSession) (now : ℤ)
  | finalizing (session : UserSession) (expiration : Expiration)
  | finalized
  | succeeded
  | unfinalized
  | denied (session : UserSession)
  | denying (session : UserSession) (expiration : Expiration)
  | failed (error : SessionError)
  deriving Repr, DecidableEq

structure Proc where
  call : Call
  phase : Phase := .start
  deriving Repr, DecidableEq

def Proc.to (p : Proc) (phase : Phase) : Proc := { p with phase := phase }

/-- Time passes, or a call takes its next step; `ok` is whether the statement or command succeeds. -/
inductive Action
  | tick (nanoseconds : ℕ)
  | next (ok : Bool)
  deriving Repr, DecidableEq

/-- The row a revocation looks for. -/
def Call.selects (call : Call) (now : ℤ) (session : UserSession) : Bool :=
  match call with
  | .revoke userId _ => session.userId = userId && session.isUsable now
  | .revokeByRefreshHash presentedHash _ =>
    session.isUsable now &&
      (session.refreshHash = presentedHash ||
        (session.previousRefreshHash ≠ "" && now ≤ session.previousValidUntil &&
          session.previousRefreshHash = presentedHash))
  | .revokeAll userId excludedSID _ =>
    session.userId = userId && session.status = .active && session.expiresAt > now &&
      (excludedSID = "" || session.sid ≠ excludedSID)
  | .renewPrior userId =>
    session.userId = userId && session.loginMethod = miniAppLoginMethod && session.isUsable now
  | _ => false

/-- The condition under which the row is then revoked. -/
def Call.revokes (call : Call) (now : ℤ) (session : UserSession) : Bool :=
  match call with
  | .revoke userId _ => session.userId = userId && session.isUsable now
  | .revokeByRefreshHash _ _ => session.status = .active
  | .revokeAll _ _ _ => session.status = .active
  | .renewPrior userId =>
    session.userId = userId && session.loginMethod = miniAppLoginMethod && session.isUsable now
  | .rotate userId _ _ _ _ => session.userId = userId && session.isUsable now
  | _ => false

def Call.reason : Call → String
  | .revoke _ reason | .revokeByRefreshHash _ reason | .revokeAll _ _ reason => reason
  | .renewPrior _ => "miniapp_renewed"
  | .rotate _ _ _ _ _ => "refresh_reuse"
  | _ => ""

/-- The bulk revocation and the renewal publish the row they have locked, the others the one they read. -/
def Call.rereads : Call → Bool
  | .revokeAll _ _ _ | .renewPrior _ => true
  | _ => false

def setAdvanced (now nextAuthVersion : ℤ) (session : UserSession) : UserSession :=
  { session with
    version := session.version + 1
    userAuthVersion := nextAuthVersion
    lastActiveAt := now }

/-- What `getUserSessionCache` makes of an entry: a schema that is not trusted counts as a miss. -/
def readEntry (clock : ℤ) (entry : UserSession) : Phase :=
  if entry.userId ≤ 0 ∨ entry.version ≤ 0 ∨ entry.userAuthVersion ≤ 0 then .missed
  else if entry.isUsable (unix clock) then .returned entry
  else .failed .inactive

section Steps

variable (cfg : Settings)

/-- The first step of a call. -/
def begin (x : Store) (p : Proc) (ok : Bool) : Store × Proc :=
  match p.call with
  | .get =>
    match x.live with
    | some entry => if ok then (x, p.to (.hit entry)) else (x, p.to .missed)
    | none => (x, p.to .missed)
  | .rotate userId presentedHash nextHash _ graceSeconds =>
    if userId ≤ 0 ∨ presentedHash = "" ∨ nextHash = "" ∨ presentedHash = nextHash ∨
        graceSeconds < 0 then (x, p.to (.failed .invalid))
    else (x, p.to (.rotating x.clock 3))
  | .create session =>
    if session.status = .active ∧ session.revokedAt = 0 ∧ session.expiresAt > unix x.clock then
      (x, p.to (.creating x.clock session))
    else (x, p.to (.failed .invalid))
  | .renewSuccessor session =>
    -- the transaction of the renewal, as far as it concerns its successor
    match x.row with
    | some _ => (x, p.to (.failed .database))
    | none =>
      if !ok then (x, p.to (.failed .database))
      else
        let session := { session with status := .active, revokedAt := 0, revokedReason := "" }
        ({ x with row := some session }, p.to (.inserted session))
  | .advance _ _ _ _ => (x, p.to (.reading x.clock))
  | .revoke _ _ | .revokeByRefreshHash _ _ | .revokeAll _ _ _ | .renewPrior _ =>
    (x, p.to (.seeking (unix x.clock)))

/-- The read or write of the row that a deadline was captured for. -/
def observe (x : Store) (p : Proc) (captured : ℤ) (ok : Bool) : Store × Proc :=
  match p.call, x.row with
  | .get, some session =>
    if !ok then (x, p.to (.failed .database))
    else if session.isUsable (unix x.clock) then (x, p.to (.observed captured session))
    else (x, p.to (.denied session))
  | .advance userId expectedVersion expectedAuthVersion nextAuthVersion, some session =>
    if ok ∧ session.userId = userId ∧ session.status = .active ∧
        session.expiresAt > unix captured ∧ session.version = expectedVersion ∧
        session.userAuthVersion = expectedAuthVersion then
      ({ x with row := some (setAdvanced (unix captured) nextAuthVersion session) },
        p.to (.observed captured (setAdvanced (unix captured) nextAuthVersion session)))
    else (x, p.to (.failed .inactive))
  | _, _ => (x, p.to (.failed .database))

/-- The insert of a created session. -/
def insertRow (x : Store) (p : Proc) (captured : ℤ) (session : UserSession) (ok : Bool) : Store × Proc :=
  match x.row with
  | some _ => (x, p.to (.failed .database))
  | none =>
    if ok then ({ x with row := some session }, p.to (.observed captured session))
    else (x, p.to (.failed .database))

/-- The read of an attempt to rotate. -/
def readRotation (x : Store) (p : Proc) (captured : ℤ) (attempts : ℕ) (ok : Bool) : Proc :=
  match p.call, x.row, attempts with
  | .rotate _ _ _ _ _, _, 0 => p.to (.failed .refreshInvalid)
  | .rotate userId presentedHash _ now _, some session, attempts + 1 =>
    if !ok ∨ session.userId ≠ userId then p.to (.failed .database)
    else
      match (afterFind session).readRotation presentedHash now with
      | .inactive => p.to (.failed .inactive)
      | .matched => p.to (.matched captured attempts session)
      | .unknown => p.to (.failed .refreshInvalid)
      | .raced => p.to (.failed .refreshRace)
      | .reused => p.to (.candidate session now)
  | _, _, _ => p.to (.failed .database)

/-- The conditional update of an attempt to rotate; the next attempt captures anew. -/
def rotateRow (x : Store) (p : Proc) (captured : ℤ) (attempts : ℕ) (session : UserSession) (ok : Bool) : Store × Proc :=
  match p.call, x.row with
  | .rotate userId presentedHash nextHash now graceSeconds, some row =>
    if !ok then (x, p.to (.failed .database))
    else if isRotatable userId now presentedHash row then
      ({ x with row := some (setRotated now graceSeconds session.refreshHash nextHash row) },
        p.to (.observed captured (setRotated now graceSeconds session.refreshHash nextHash session)))
    else (x, p.to (.rotating x.clock attempts))
  | _, _ => (x, p.to (.failed .database))

/-- The script of an active snapshot.  A cache that fails is only logged, but for `advance`. -/
def fill (x : Store) (p : Proc) (captured : ℤ) (session : UserSession) (expiration : Expiration)
    (ok : Bool) : Store × Proc :=
  if !ok then
    match p.call with
    | .advance _ _ _ _ => (x, p.to (.failed .database))
    | _ => (x, p.to (.returned session))
  else if x.accepts (cacheEntry session) then
    (x.put (cacheEntry session) expiration, p.to (.filled captured session))
  else (x, p.to (.failed .inactive))

/-- `confirmUserSessionActiveSnapshot`. -/
def confirm (x : Store) (p : Proc) (session : UserSession) (ok : Bool) : Proc :=
  if !ok then p.to (.failed .database)
  else if x.row.any fun row => row.userId = session.userId && row.isUsable (unix x.clock) &&
      row.version = session.version && row.userAuthVersion = session.userAuthVersion then
    p.to (.returned session)
  else p.to (.failed .inactive)

/-- The tombstone of a session. -/
def tombstone (status : SessionStatus) (now : ℤ) (reason : String) (session : UserSession) : UserSession :=
  { cacheEntry session with status := status, revokedAt := now, revokedReason := reason }

/-- The tombstone of a row that a read found inactive keeps the row's own times. -/
def inactiveEntry (session : UserSession) : UserSession :=
  { cacheEntry session with status := .revoked }

/-- The script of a tombstone. -/
def deny (x : Store) (entry : UserSession) (expiration : Expiration) (ok : Bool) : Store × Bool :=
  if ok && x.accepts entry then (x.put entry expiration, true) else (x, false)

/-- The row is revoked, in the transaction of a revocation. -/
def revokeRow (x : Store) (p : Proc) (session : UserSession) (now : ℤ) (ok : Bool) : Store × Proc :=
  match x.row with
  | none => (x, p.to (.failed .database))
  | some row =>
    if !ok then (x, p.to (.failed .database))
    else if p.call.revokes now row then
      ({ x with row := some (setRevoked now p.call.reason row) },
        p.to (.revokedRow (if p.call.rereads then row else session) now))
    else (x, p.to (.failed .inactive))

/-- The next step of a call. -/
def next (x : Store) (p : Proc) (ok : Bool) : Store × Proc :=
  match p.phase with
  | .start => begin x p ok
  | .hit entry => (x, p.to (readEntry x.clock entry))
  | .missed => (x, p.to (.reading x.clock))
  | .reading captured => observe x p captured ok
  | .creating captured session => insertRow x p captured session ok
  | .rotating captured attempts => (x, readRotation x p captured attempts ok)
  | .matched captured attempts session => rotateRow x p captured attempts session ok
  | .inserted session => (x, p.to (.observed x.clock session))
  | .observed captured session =>
    match prepare cfg x.clock (cacheEntry session) (some (deadline cfg captured)) with
    | .ok expiration => (x, p.to (.filling captured session expiration))
    | .error .stale => (x, p.to (.confirming session))
    | .error .inactive => (x, p.to (.failed .inactive))
    | .error .invalid => (x, p.to (.failed .invalid))
  | .filling captured session expiration => fill x p captured session expiration ok
  | .filled captured session =>
    if deadline cfg captured ≤ x.clock then (x, p.to (.confirming session))
    else if session.expiresAt * second ≤ x.clock then (x, p.to (.failed .inactive))
    else (x, p.to (.returned session))
  | .confirming session => (x, confirm x p session ok)
  | .seeking now =>
    match x.row with
    | none => (x, p.to (.failed .inactive))
    | some session =>
      if ok && p.call.selects now (afterFind session) then (x, p.to (.candidate session now))
      else (x, p.to (.failed .inactive))
  | .candidate session now =>
    (x, p.to (.fencing session now (denyExpiration cfg x.clock session)))
  | .fencing session now expiration =>
    match deny x (tombstone .revoking now p.call.reason session) expiration ok with
    | (y, true) => (y, p.to (.fenced session now))
    | (y, false) => (y, p.to (.failed .inactive))
  | .fenced session now => revokeRow x p session now ok
  | .revokedRow session now =>
    (x, p.to (.finalizing (tombstone .revoked now p.call.reason session) (denyExpiration cfg x.clock session)))
  | .finalizing entry expiration =>
    match deny x entry expiration ok with
    | (y, true) => (y, p.to .finalized)
    | (y, false) => (y, p.to .unfinalized)
  -- that the last tombstone could not be written is only logged
  | .finalized | .unfinalized => (x, p.to .succeeded)
  | .denied session =>
    (x, p.to (.denying (inactiveEntry session) (denyExpiration cfg x.clock session)))
  | .denying entry expiration => ((deny x entry expiration ok).1, p.to (.failed .inactive))
  | .returned _ | .succeeded | .failed _ => (x, p)

def act (x : Store) (p : Proc) : Action → Store × Proc
  | .tick nanoseconds => ({ x with clock := x.clock + nanoseconds }, p)
  | .next ok => next cfg x p ok

/-- Calls that have not begun. -/
def opening {ι : Type*} (x : Store) (calls : ι → Call) : System ι Store Proc :=
  ⟨x, fun i => ⟨calls i, .start⟩⟩

end Steps

end OneApi.Auth.SessionCache
