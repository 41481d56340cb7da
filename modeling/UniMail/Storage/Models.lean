import UniMail.Chrono
import UniMail.Error

/-!
# Persisted domain models
-/

namespace UniMail

/-- Whether an account is currently usable. -/
inductive AccountStatus
  | active
  | disconnected
  deriving DecidableEq, Repr

namespace AccountStatus

/-- Parse from the stored string. -/
def parse (s : String) : AccountStatus :=
  if s = "disconnected" then .disconnected else .active

/-- Stored string form. -/
def asStr : AccountStatus → String
  | .active => "active"
  | .disconnected => "disconnected"

@[simp] theorem parse_asStr (s : AccountStatus) : parse s.asStr = s := by
  cases s <;> decide

end AccountStatus

/-- A connected email account belonging to a tenant. -/
structure Account where
  id : String
  tenantId : String
  emailAddress : String
  displayName : Option String
  provider : String
  status : AccountStatus
  createdAt : String
  updatedAt : String
  deriving DecidableEq, Repr

/-- A decrypted token set for one account. -/
structure StoredToken where
  accessToken : String
  refreshToken : String
  scope : Option String
  expiresAt : Option DateTime
  lastUsedAt : Option DateTime
  updatedAt : DateTime
  deriving DecidableEq, Repr

/-- Everything needed to complete a flow once the callback arrives. -/
structure PendingFlow where
  verifier : String
  tenantId : String
  createdAt : Int
  deriving DecidableEq, Repr

/-- Errors returned when resolving a pending flow. -/
inductive FlowError
  | unknownState
  | expired
  | storage (msg : String)
  deriving DecidableEq, Repr

end UniMail
