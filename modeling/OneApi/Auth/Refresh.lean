import OneApi.Auth.Session
import OneApi.Lib.Go
import OneApi.Lib.Procs

/-!
# Rotation of refresh tokens

A refresh token is the id of a session and a secret, of which only a keyed digest is stored.  A refresh
replaces the digest of the secret it was given by that of the secret derived from it, in a conditional
update that up to three reads lead to; the digest before is kept, and its secret is answered once more for
a while with what it was replaced by.  After that it reveals a stolen token and ends the session.

Any number of refreshes run here at once, statement by statement.  Whether a refresh comes to its rotation
at all (`GetUserSessionCached` and the user) and whether it can answer after it (the cache, the access
token) is left open.  The store counts the rotations of each session, and a call remembers the count at
which its row was updated or read.
-/

namespace OneApi.Auth.Refresh

open OneApi.Lib OneApi.Lib.Run OneApi.Lib.Procs OneApi.Lib.Go

/-- `RefreshReplayWindow` in seconds. -/
def graceSeconds : ℤ := 30

/-- What the process is set up with: HMAC-SHA256 under its keys for digests and for rotation, and the ids
that `uuid.Parse` accepts. -/
structure Setup where
  refreshMac : String → List UInt8
  rotateMac : String → List UInt8
  isUUID : String → Bool

section Tokens

variable (setup : Setup)

def hashRefreshSecret (secret : String) : String := hexEncode (setup.refreshMac secret)

def deriveNextRefreshSecret (sid currentSecret : String) : String :=
  hexEncode (setup.rotateMac (sid ++ "." ++ currentSecret))

def splitRefreshToken (raw : String) : Option (String × String) :=
  match cut (trimSpace raw) '.' with
  | none => none
  | some (sid, secret) =>
    if sid = "" ∨ secret = "" ∨ contains secret "." then none
    else if setup.isUUID sid then some (sid, secret)
    else none

def refreshToken (sid secret : String) : String := sid ++ "." ++ secret

end Tokens

structure Call where
  rawRefreshToken : String
  expectedSID : String := ""
  deriving Repr, DecidableEq

/-- What becomes of a refresh before its rotation. -/
inductive Entry
  | refused (error : SessionError)
  | securityChanged (userId : ℤ)
  | admitted (userId : ℤ)
  deriving Repr, DecidableEq

/-- How a call comes to its answer, with the rotations of the session until then: it makes the next one,
or it repeats the last one. -/
inductive Deed
  | rotation (step : ℕ) (now : ℤ)
  | replay (count : ℕ) (now : ℤ)
  deriving Repr, DecidableEq

inductive Phase
  | start
  | securityChanged (userId : ℤ)
  | admitted (userId : ℤ)
  | rotating (userId now : ℤ) (attempts : ℕ)
  | matched (userId now : ℤ) (attempts : ℕ) (session : UserSession)
  | reused (userId now : ℤ)
  | rotated
  | raced (session : UserSession)
  | done (refreshToken : String)
  | failed (error : SessionError)
  deriving Repr, DecidableEq

structure Proc where
  call : Call
  phase : Phase := .start
  deed : Option Deed := none
  deriving Repr, DecidableEq

def Proc.to (p : Proc) (phase : Phase) : Proc := { p with phase := phase }

structure Store where
  sessions : Sessions
  rotations : String → ℕ := fun _ => 0

/-- The next step of a refresh; `ok` is whether its statement succeeds. -/
inductive Action
  | precheck (entry : Entry)
  | enter (now clock : ℤ)
  | read (ok : Bool)
  | update (ok : Bool)
  | finish (ok : Bool)
  | revoke (now : ℤ) (ok : Bool)
  deriving Repr, DecidableEq

section Steps

variable (setup : Setup)

def findSession (sessions : Sessions) (sid : String) (userId : ℤ) : Option UserSession :=
  ((sessions.find sid).filter fun s => s.userId = userId).map afterFind

/-- The active row of a session is revoked. -/
def revokeSession (sessions : Sessions) (userId : ℤ) (sid : String) (now : ℤ) (reason : String) : Sessions :=
  sessions.updateWhere (fun s => s.sid = sid && s.userId = userId && s.isUsable now)
    (setRevoked now reason) (setRevoked_sid now reason)

/-- What `RefreshLoginSession` does before its rotation. -/
def precheck (p : Proc) (entry : Entry) : Proc :=
  match p.phase with
  | .start =>
    match splitRefreshToken setup p.call.rawRefreshToken with
    | none => p.to (.failed .refreshInvalid)
    | some (sid, _) =>
      if trimSpace p.call.expectedSID ≠ "" ∧ trimSpace p.call.expectedSID ≠ sid then
        p.to (.failed .mismatch)
      else
        match entry with
        | .refused e => p.to (.failed e)
        | .securityChanged userId => p.to (.securityChanged userId)
        | .admitted userId => p.to (.admitted userId)
  | _ => p

/-- The checks that `RotateUserSessionRefresh` begins with. -/
def enter (p : Proc) (sid secret : String) (now clock : ℤ) : Proc :=
  match p.phase with
  | .admitted userId =>
    if userId ≤ 0 ∨ sid = "" ∨ hashRefreshSecret setup secret = "" ∨
        hashRefreshSecret setup (deriveNextRefreshSecret setup sid secret) = "" ∨
        hashRefreshSecret setup secret = hashRefreshSecret setup (deriveNextRefreshSecret setup sid secret) then
      p.to (.failed .invalid)
    else p.to (.rotating userId (if now ≤ 0 then clock else now) 3)
  | _ => p

/-- The read of an attempt, and what it decides. -/
def read (x : Store) (p : Proc) (sid secret : String) (ok : Bool) : Proc :=
  match p.phase with
  | .rotating _ _ 0 => p.to (.failed .refreshInvalid)
  | .rotating userId now (attempts + 1) =>
    if !ok then p.to (.failed .database)
    else
      match findSession x.sessions sid userId with
      | none => p.to (.failed .database)
      | some session =>
        match session.readRotation (hashRefreshSecret setup secret) now with
        | .inactive => p.to (.failed .inactive)
        | .matched => p.to (.matched userId now attempts session)
        | .unknown => p.to (.failed .refreshInvalid)
        | .raced => { p with phase := .raced session, deed := some (.replay (x.rotations sid) now) }
        | .reused => p.to (.reused userId now)
  | _ => p

/-- The conditional update of an attempt; one that meets no row goes back to the read. -/
def update (x : Store) (p : Proc) (sid secret : String) (ok : Bool) : Store × Proc :=
  match p.phase with
  | .matched userId now attempts session =>
    if !ok then (x, p.to (.failed .database))
    else if (x.sessions.find sid).any (isRotatable userId now (hashRefreshSecret setup secret)) then
      ({ sessions := x.sessions.updateWhere
            (fun s => s.sid = sid &&
              isRotatable userId now (hashRefreshSecret setup secret) s)
            (setRotated now graceSeconds session.refreshHash
              (hashRefreshSecret setup (deriveNextRefreshSecret setup sid secret)))
            (setRotated_sid _ _ _ _)
         rotations := Function.update x.rotations sid (x.rotations sid + 1) },
        { p with phase := .rotated, deed := some (.rotation (x.rotations sid) now) })
    else (x, p.to (.rotating userId now attempts))
  | _ => (x, p)

/-- The answer: after a rotation, or to a token that was replaced a moment ago. -/
def finish (p : Proc) (sid secret : String) (ok : Bool) : Proc :=
  let nextSecret := deriveNextRefreshSecret setup sid secret
  match p.phase with
  | .rotated => if ok then p.to (.done (refreshToken sid nextSecret)) else p.to (.failed .database)
  | .raced session =>
    if hashRefreshSecret setup nextSecret = session.refreshHash then
      if ok then p.to (.done (refreshToken sid nextSecret)) else p.to (.failed .database)
    else p.to (.failed .refreshRace)
  | _ => p

/-- A session ends because its user has changed, or because a token was used again. -/
def revoke (x : Store) (p : Proc) (sid : String) (now : ℤ) (ok : Bool) : Store × Proc :=
  match p.phase with
  | .securityChanged userId =>
    if ok then
      ({ x with sessions := revokeSession x.sessions userId sid now "user_security_changed" }, p.to (.failed .revoked))
    else (x, p.to (.failed .revoked))
  | .reused userId now =>
    if !ok then (x, p.to (.failed .database))
    else if (x.sessions.find sid).any fun s => s.userId = userId && s.isUsable now then
      ({ x with sessions := revokeSession x.sessions userId sid now "refresh_reuse" }, p.to (.failed .refreshReuse))
    else (x, p.to (.failed .inactive))
  | _ => (x, p)

/-- A step of a call whose token can be split. -/
def step (x : Store) (p : Proc) (sid secret : String) : Action → Store × Proc
  | .precheck entry => (x, precheck setup p entry)
  | .enter now clock => (x, enter setup p sid secret now clock)
  | .read ok => (x, read setup x p sid secret ok)
  | .update ok => update setup x p sid secret ok
  | .finish ok => (x, finish setup p sid secret ok)
  | .revoke now ok => revoke x p sid now ok

/-- One step; one that the call is not ready for does nothing.  Without an id and a secret a call is
refused where it is split. -/
def act (x : Store) (p : Proc) (a : Action) : Store × Proc :=
  match splitRefreshToken setup p.call.rawRefreshToken with
  | some (sid, secret) => step setup x p sid secret a
  | none => (x, precheck setup p (.refused .refreshInvalid))

end Steps

end OneApi.Auth.Refresh
