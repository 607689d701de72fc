import AccessGate.Config.Basic
import AccessGate.Json.Decode

/-!
# The JSON form of settings

Every field may be left out and then has its default. Spans of time are whole milliseconds of 64
bits; a span that needs more is written without the bits beyond.
-/

namespace AccessGate

open Json

/-- Reads a span of whole milliseconds. -/
def Duration.ofJson (j : Json) : Except DecodeError Duration := (asNat64 "u64" j).map .ofMillis

/-- The span in whole milliseconds of 64 bits. -/
def Duration.toJson (d : Duration) : Json := .ofNat (d.wholeMillis % Nat.pow 2 64)

namespace Config

/-- The fields of the JSON form. -/
def fields : List Field :=
  [.may "identity_endpoint" asString, .may "enabled" asBool,
    .may "call_timeout_ms" Duration.ofJson, .may "health_timeout_ms" Duration.ofJson,
    .may "cache_ttl_ms" Duration.ofJson, .may "negative_cache_ttl_ms" Duration.ofJson,
    .may "failure_limit" (asNat64 "usize"), .may "reset_timeout_ms" Duration.ofJson,
    .may "degrade_on_startup_failure" asBool, .may "service_name" (asOption asString)]

/-- Reads settings. -/
def ofJson (source : Source) (j : Json) : Except DecodeError Config := do
  let kept ← asRecord "struct AuthConfig" fields source j
  let d : Config := {}
  .ok {
    identityEndpoint := ← fieldOr kept "identity_endpoint" d.identityEndpoint asString
    enabled := ← fieldOr kept "enabled" d.enabled asBool
    callTimeout := ← fieldOr kept "call_timeout_ms" d.callTimeout Duration.ofJson
    healthTimeout := ← fieldOr kept "health_timeout_ms" d.healthTimeout Duration.ofJson
    cacheTtl := ← fieldOr kept "cache_ttl_ms" d.cacheTtl Duration.ofJson
    negativeCacheTtl :=
      ← fieldOr kept "negative_cache_ttl_ms" d.negativeCacheTtl Duration.ofJson
    failureLimit := ← fieldOr kept "failure_limit" d.failureLimit (asNat64 "usize")
    resetTimeout := ← fieldOr kept "reset_timeout_ms" d.resetTimeout Duration.ofJson
    degradeOnStartupFailure :=
      ← fieldOr kept "degrade_on_startup_failure" d.degradeOnStartupFailure asBool
    serviceName := ← fieldOr kept "service_name" d.serviceName (asOption asString) }

/-- The JSON form. -/
def toJson (c : Config) : Json :=
  .object [
    ("identity_endpoint", .string c.identityEndpoint), ("enabled", .bool c.enabled),
    ("call_timeout_ms", c.callTimeout.toJson), ("health_timeout_ms", c.healthTimeout.toJson),
    ("cache_ttl_ms", c.cacheTtl.toJson),
    ("negative_cache_ttl_ms", c.negativeCacheTtl.toJson),
    ("failure_limit", .ofNat c.failureLimit), ("reset_timeout_ms", c.resetTimeout.toJson),
    ("degrade_on_startup_failure", .bool c.degradeOnStartupFailure),
    ("service_name", .ofOption .string c.serviceName)]

end Config

end AccessGate
