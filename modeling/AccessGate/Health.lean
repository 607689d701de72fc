import AccessGate.Breaker.State
import AccessGate.Json.Basic

/-!
# Health

A `Health` is what the service tells about its authorization. Running without authorization and an
open breaker are both faults, but only the second one refuses everybody.
-/

namespace AccessGate

/-- How well authorization works. -/
inductive HealthStatus
  | healthy
  | degraded
  | unhealthy
deriving DecidableEq, Repr

/-- The name of a status. -/
def HealthStatus.name : HealthStatus → String
  | healthy => "healthy"
  | degraded => "degraded"
  | unhealthy => "unhealthy"

/-- What is told about authorization. -/
structure Health where
  authEnabled : Bool
  /-- Authorization is off because the validator could not be reached. -/
  degraded : Bool
  breaker : Breaker.Phase
  failures : Nat
  cacheEntries : Nat
deriving DecidableEq, Repr

namespace Health

/-- The summary. -/
def status (h : Health) : HealthStatus :=
  if h.degraded then .degraded
  else
    match h.breaker with
    | .opened => .unhealthy
    | .halfOpen => .degraded
    | .closed => if h.failures > 0 then .degraded else .healthy

/-- The JSON form. -/
def toJson (h : Health) : Json :=
  .object [
    ("auth_enabled", .bool h.authEnabled), ("degraded", .bool h.degraded),
    ("breaker_state", .string h.breaker.name), ("failure_count", .ofNat h.failures),
    ("cache_entries", .ofNat h.cacheEntries)]

end Health

end AccessGate
