import AccessGate.Access
import AccessGate.Audit.Log
import AccessGate.Breaker.Basic
import AccessGate.Cache.Basic
import AccessGate.Config.Basic
import AccessGate.Health
import AccessGate.Operation
import AccessGate.Remote.Call

/-!
# The gate

A `Gate` stands before every handler of a service: it holds the settings, the domain with its
operations, and all that changes while it works, namely the owners of scopes, the breaker in front
of the validator, the cache of principals, the two flags that say whether requests are authorized,
and the audit log. Only settings without a fault make a gate (`Gate.build`).
-/

namespace AccessGate

/-- The authorization of a service. -/
structure Gate where
  config : Config
  domain : Domain
  operations : OperationTable
  ownership : Ownership
  breaker : Breaker
  cache : Cache
  /-- Whether requests are authorized. -/
  enabled : Bool
  /-- Whether authorization was switched off because the validator could not be reached. -/
  degraded : Bool
  audit : AuditLog

/-- A request that asks to be let in. -/
structure Request where
  operation : String
  credential : String
  /-- The scope it works on; empty for none. -/
  scope : String
deriving DecidableEq, Repr

/-- That a request is let in. -/
structure Authorization where
  principal : Principal
  /-- The pattern that grants it; none if authorization was off. -/
  pattern : Option AccessPattern
deriving DecidableEq, Repr

/-- Whether a request was let in unchecked. -/
def Authorization.isBypassed (a : Authorization) : Bool := a.pattern.isNone

namespace Gate

/-- What a gate is made of beside its settings. -/
structure Parts where
  domain : Domain := .state
  /-- The operations; those that every service has, if none are given. -/
  operations : Option OperationTable := none
  ownership : Ownership := {}
  audit : AuditLog := { sinks := [.events] }
  /-- A breaker shared with others; one of the gate's own, if none is given. -/
  breaker : Option Breaker := none

/-- The gate with settings and parts, new at an instant. -/
def build (c : Config) (parts : Parts) (now : Instant) : Except Error Gate := do
  c.validate
  .ok {
    config := c
    domain := parts.domain
    operations := parts.operations.getD (.standard parts.domain)
    ownership := parts.ownership
    breaker := parts.breaker.getD (.create c.breakerSettings now)
    cache := { settings := c.cacheSettings }
    enabled := c.enabled
    degraded := false
    audit := parts.audit }

/-- Runs validations. -/
def validateInvoker (g : Gate) : Invoker := ⟨"validate", g.config.callTimeout⟩

/-- Runs health checks of the validator. -/
def probeInvoker (g : Gate) : Invoker := ⟨"ping", g.config.healthTimeout⟩

/-- Whether an operation must name a scope. -/
def requiresScope (g : Gate) (operation : String) : Bool :=
  (g.operations.rule operation).requiresScope

/-- Makes a service the owner of a scope. -/
def registerScope (g : Gate) (scope service : String) : Gate :=
  { g with ownership := g.ownership.register scope service }

/-- Leaves a scope without an owner. -/
def unregisterScope (g : Gate) (scope : String) : Gate :=
  { g with ownership := g.ownership.unregister scope }

/-- Drops every cached principal and marker. -/
def clearCache (g : Gate) : Gate := { g with cache := g.cache.clear }

/-- Drops what is cached for a credential. -/
def invalidate (g : Gate) (credential : String) : Gate :=
  { g with cache := g.cache.invalidate credential }

/-- Closes the breaker. -/
def resetBreaker (g : Gate) (now : Instant) : Gate := { g with breaker := g.breaker.reset now }

/-- What is told about the gate. -/
def health (g : Gate) (now : Instant) : Health where
  authEnabled := g.enabled
  degraded := g.degraded
  breaker := g.breaker.shown now
  failures := g.breaker.state.failures
  cacheEntries := g.cache.size

end Gate

end AccessGate
