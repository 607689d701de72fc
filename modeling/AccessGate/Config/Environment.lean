import AccessGate.Config.Basic
import AccessGate.Text.Natural

/-!
# Settings from the environment

Each setting that a deployment may want to change has a variable. The variables are looked at in the
order of `Variable.all`; the first that cannot be read ends it, and what the ones before have set
stays.
-/

namespace AccessGate

/-- The variables of the environment. -/
inductive Variable
  | identityEndpoint
  | enabled
  | callTimeout
  | healthTimeout
  | cacheTtl
  | negativeCacheTtl
  | failureLimit
  | resetTimeout
  | degradeOnStartupFailure
  | serviceName
deriving DecidableEq, Repr

/-- What the environment holds under a name. -/
abbrev Environment := String → Option String

namespace Variable

/-- The name of a variable. -/
def name : Variable → String
  | identityEndpoint => "BASTION_IDENTITY_ENDPOINT"
  | enabled => "BASTION_AUTH_ENABLED"
  | callTimeout => "BASTION_AUTH_TIMEOUT_MS"
  | healthTimeout => "BASTION_HEALTH_TIMEOUT_MS"
  | cacheTtl => "BASTION_CACHE_TTL_SECS"
  | negativeCacheTtl => "BASTION_NEGATIVE_CACHE_TTL_SECS"
  | failureLimit => "BASTION_BREAKER_FAILURE_LIMIT"
  | resetTimeout => "BASTION_BREAKER_RESET_SECS"
  | degradeOnStartupFailure => "BASTION_DEGRADE_ON_STARTUP_FAILURE"
  | serviceName => "BASTION_SERVICE_NAME"

/-- Every variable, in the order in which they are looked at. -/
def all : List Variable :=
  [identityEndpoint, enabled, callTimeout, healthTimeout, cacheTtl, negativeCacheTtl, failureLimit,
    resetTimeout, degradeOnStartupFailure, serviceName]

/-- Why a value cannot be read. -/
inductive Fault
  | notNatural (fault : Text.NaturalFault)
  | notBoolean
deriving DecidableEq, Repr

/-- The error of a variable whose value cannot be read. -/
def error (v : Variable) (value : String) : Fault → Error
  | .notNatural fault => .validation v.name (s!"'{value}': " ++ fault.message)
  | .notBoolean => .validation v.name s!"'{value}' is not a boolean"

/-- The log lines about a value that cannot be read. -/
def log (v : Variable) (value : String) : Fault → List String
  | .notNatural _ => []
  | .notBoolean => ["WARN Unrecognised boolean \"" ++ value ++ "\" in " ++ v.name]

/-- Reads a whole number of 64 bits, white space at its ends aside. -/
def readNat (value : String) : Except Fault Nat :=
  match Text.readNatural (Nat.pow 2 64) (Text.trimmed value) with
  | .ok n => .ok n
  | .error fault => .error (.notNatural fault)

/-- Reads a truth value: one of four words for each, in capitals or not. -/
def readBool (value : String) : Except Fault Bool :=
  let word := (Text.trimmed value).toLower
  if ["1", "true", "yes", "on"].contains word then .ok true
  else if ["0", "false", "no", "off"].contains word then .ok false
  else .error .notBoolean

/-- Settings with the value of a variable in place of the setting's own. -/
def apply (v : Variable) (value : String) (c : Config) : Except Fault Config :=
  match v with
  | identityEndpoint => .ok { c with identityEndpoint := value }
  | enabled => do .ok { c with enabled := ← readBool value }
  | callTimeout => do .ok { c with callTimeout := .ofMillis (← readNat value) }
  | healthTimeout => do .ok { c with healthTimeout := .ofMillis (← readNat value) }
  | cacheTtl => do .ok { c with cacheTtl := .ofSecs (← readNat value) }
  | negativeCacheTtl => do .ok { c with negativeCacheTtl := .ofSecs (← readNat value) }
  | failureLimit => do .ok { c with failureLimit := ← readNat value }
  | resetTimeout => do .ok { c with resetTimeout := .ofSecs (← readNat value) }
  | degradeOnStartupFailure => do .ok { c with degradeOnStartupFailure := ← readBool value }
  | serviceName => .ok { c with serviceName := some value |>.filter (!·.isEmpty) }

theorem mem_all (v : Variable) : v ∈ all := by cases v <;> decide

end Variable

namespace Config

/-- Settings after the environment was looked at: what they are, whether every variable could be
read, and what was logged. -/
structure Overridden where
  config : Config
  result : Except Error Unit
  log : List String

/-- Looks at variables in order. -/
def applyVariables (env : Environment) : List Variable → Config → Overridden
  | [], c => ⟨c, .ok (), []⟩
  | v :: vs, c =>
    match env v.name with
    | none => applyVariables env vs c
    | some value =>
      match v.apply value c with
      | .ok c => applyVariables env vs c
      | .error fault => ⟨c, .error (v.error value fault), v.log value fault⟩

/-- Looks at every variable of the environment. -/
def applyEnvironment (c : Config) (env : Environment) : Overridden :=
  applyVariables env Variable.all c

end Config

end AccessGate
