import AccessGate.Breaker.State
import AccessGate.Cache.Basic
import AccessGate.Error
import AccessGate.Text.Blank

/-!
# Settings

A `Config` holds every setting of the gate. `Config.fault?` finds the first rule that one breaks;
only settings without a fault are used. The breaker in front of the validator and the cache of
principals take theirs from it.
-/

namespace AccessGate

/-- The settings of the gate. -/
structure Config where
  /-- The address of the validator. -/
  identityEndpoint : String := "tcp://127.0.0.1:5555"
  /-- Whether requests are authorized at all. -/
  enabled : Bool := true
  /-- The deadline of a validation. -/
  callTimeout : Duration := .ofMillis 30000
  /-- The deadline of a health check. -/
  healthTimeout : Duration := .ofMillis 500
  /-- The lifetime of a cached principal. -/
  cacheTtl : Duration := .ofSecs 300
  /-- The lifetime of the marker of an unknown credential; none are kept when it is zero. -/
  negativeCacheTtl : Duration := .ofSecs 30
  /-- The failures in a row that open the breaker. -/
  failureLimit : Nat := 3
  /-- How long after the last failure the breaker lets a call through. -/
  resetTimeout : Duration := .ofSecs 30
  /-- Whether to serve without authorization when the validator cannot be reached at the start. -/
  degradeOnStartupFailure : Bool := true
  /-- The service that the gate belongs to. -/
  serviceName : Option String := none
deriving DecidableEq, Repr

namespace Config

/-- The first rule that settings break: the field, and what it must be. -/
def fault? (c : Config) : Option (String × String) :=
  if Text.isBlank c.identityEndpoint then some ("identity_endpoint", "must not be empty")
  else if c.callTimeout.isZero then some ("call_timeout", "must be greater than zero")
  else if c.healthTimeout.isZero then some ("health_timeout", "must be greater than zero")
  else if c.cacheTtl.isZero then some ("cache_ttl", "must be greater than zero")
  else if c.failureLimit = 0 then some ("failure_limit", "must be at least 1")
  else if c.resetTimeout.isZero then some ("reset_timeout", "must be greater than zero")
  else if c.serviceName.any Text.isBlank then some ("service_name", "must not be blank")
  else none

/-- Accepts settings that break no rule. -/
def validate (c : Config) : Except Error Unit :=
  match c.fault? with
  | none => .ok ()
  | some (field, rule) => .error (.validation field rule)

/-- The settings of the breaker in front of the validator. -/
def breakerSettings (c : Config) : Breaker.Settings :=
  .of c.identityEndpoint c.failureLimit c.resetTimeout

/-- The lifetimes of the cache of principals. -/
def cacheSettings (c : Config) : CacheSettings := ⟨c.cacheTtl, c.negativeCacheTtl⟩

end Config

end AccessGate
