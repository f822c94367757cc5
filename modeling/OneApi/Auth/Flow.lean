import OneApi.Lib.Go
import OneApi.Lib.Table

/-!
# Authentication flows

A row of `auth_flows` is one-time state of an authentication ceremony, found by the HMAC of an opaque
token or by its id.  The same table remembers the assertions of external providers: such a row is
consumed from the start.

Times are in nanoseconds.  The payload and the time of creation are left to the callers, who alone read
them.
-/

namespace OneApi.Auth

structure AuthFlow where
  id : ℤ
  tokenHash : String
  purpose : String
  provider : String := ""
  intent : String := ""
  userId : ℤ := 0
  sessionId : String := ""
  expiresAt : ℤ
  consumedAt : Option ℤ := none
  deriving Repr, DecidableEq

inductive AuthFlowError
  | invalid
  | expired
  | consumed
  | database
  | action
  deriving Repr, DecidableEq

def authFlowDefaultCleanupRetention : ℤ := 24 * Lib.Go.hour

end OneApi.Auth
