import OneApi.Lib.Go
import OneApi.Lib.Table

/-!
# Login sessions

The rows of `user_sessions` and what they are asked for.  Times are in seconds.  The address and the
browser of a session are left out: they are written and shown, and nothing is decided by them.
-/

namespace OneApi.Auth

open OneApi.Lib

inductive SessionStatus
  | active
  | revoking
  | revoked
  deriving Repr, DecidableEq

structure UserSession where
  sid : String
  userId : ℤ
  version : ℤ := 1
  userAuthVersion : ℤ
  status : SessionStatus := .active
  refreshHash : String
  previousRefreshHash : String := ""
  previousValidUntil : ℤ := 0
  loginMethod : String
  createdAt : ℤ
  lastActiveAt : ℤ
  expiresAt : ℤ
  revokedAt : ℤ := 0
  revokedReason : String := ""
  deriving Repr, DecidableEq

/-- The errors of `model/user_session.go` and `service/auth_session.go`. -/
inductive SessionError
  | invalid
  | inactive
  | refreshInvalid
  | refreshRace
  | refreshReuse
  | limit
  | issuanceLimit
  | revoked
  | ownership
  | mismatch
  | database
  deriving Repr, DecidableEq

abbrev Sessions := Table UserSession UserSession.sid

/-- The checks of a row that is to be used. -/
def UserSession.isUsable (session : UserSession) (now : ℤ) : Bool :=
  session.status = .active && session.revokedAt = 0 && session.expiresAt > now

/-- The columns a revocation sets. -/
def setRevoked (now : ℤ) (reason : String) (session : UserSession) : UserSession :=
  { session with status := .revoked, revokedAt := now, revokedReason := reason }

theorem setRevoked_sid (now : ℤ) (reason : String) (session : UserSession) :
    (setRevoked now reason session).sid = session.sid := rfl

/-! ## Rotation of the refresh token -/

/-- `AfterFind` trims what older rows were padded with. -/
def afterFind (session : UserSession) : UserSession :=
  { session with previousRefreshHash := Go.trimSpace session.previousRefreshHash }

/-- What a rotation makes of the row it has read. -/
inductive RotationRead
  | inactive
  | matched
  | unknown
  | raced
  | reused
  deriving Repr, DecidableEq

/-- The checks of an attempt of `RotateUserSessionRefresh`. -/
def UserSession.readRotation (session : UserSession) (presentedHash : String) (now : ℤ) : RotationRead :=
  if !session.isUsable now then .inactive
  else if session.refreshHash = presentedHash then .matched
  else if session.previousRefreshHash = "" ∨ session.previousRefreshHash ≠ presentedHash then .unknown
  else if now ≤ session.previousValidUntil then .raced
  else .reused

/-- What each answer means. -/
theorem UserSession.readRotation_spec (session : UserSession) (presentedHash : String) (now : ℤ) :
    match session.readRotation presentedHash now with
    | .inactive => session.isUsable now = false
    | .matched => session.isUsable now = true ∧ session.refreshHash = presentedHash
    | .unknown => session.previousRefreshHash = "" ∨ session.previousRefreshHash ≠ presentedHash
    | .raced => session.previousRefreshHash ≠ "" ∧ session.previousRefreshHash = presentedHash ∧
        now ≤ session.previousValidUntil
    | .reused => session.isUsable now = true ∧ session.previousRefreshHash = presentedHash ∧
        session.previousValidUntil < now := by
  rw [UserSession.readRotation]
  split_ifs with hinactive hmatched hunknown hraced
  · simpa using hinactive
  · exact ⟨by simpa using hinactive, hmatched⟩
  · exact hunknown
  · obtain ⟨hne, heq⟩ := not_or.mp hunknown
    exact ⟨hne, not_not.mp heq, hraced⟩
  · exact ⟨by simpa using hinactive, not_not.mp (not_or.mp hunknown).2, not_le.mp hraced⟩

/-- The condition of its update, beside the session's id. -/
def isRotatable (userId now : ℤ) (presentedHash : String) (session : UserSession) : Bool :=
  session.userId = userId && session.isUsable now && session.refreshHash = presentedHash

/-- The columns it sets. -/
def setRotated (now graceSeconds : ℤ) (previousHash nextHash : String) (session : UserSession) : UserSession :=
  { session with
    previousRefreshHash := previousHash
    previousValidUntil := now + graceSeconds
    refreshHash := nextHash
    lastActiveAt := now }

theorem setRotated_sid (now graceSeconds : ℤ) (previousHash nextHash : String) (session : UserSession) :
    (setRotated now graceSeconds previousHash nextHash session).sid = session.sid := rfl

def miniAppLoginMethod : String := "wechat-miniapp"

/-- The part of a user that sessions look at. -/
structure UserBase where
  enabled : Bool
  authVersion : ℤ
  deriving Repr, DecidableEq

end OneApi.Auth
