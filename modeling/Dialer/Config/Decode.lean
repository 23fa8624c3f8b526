import Dialer.Config
import Dialer.Config.Value

/-!
# From documents to configurations

Every key is optional and unknown keys are ignored; a known key must have a value of its
type and range. A section, and the whole configuration, may also be written as a list of
its fields' values in the order of declaration, of which any number at the end may be
missing.
-/

namespace Dialer

namespace Value

/-- A truth value. -/
def toBool? : Value → Option Bool
  | .bool b => some b
  | _ => none

/-- A text. -/
def toText? : Value → Option String
  | .text s => some s
  | _ => none

/-- A whole number in a range that begins at zero. -/
def toNat? (bound : Nat) : Value → Option Nat
  | .integer n => if 0 ≤ n ∧ n.toNat < bound then some n.toNat else none
  | _ => none

/-- A whole number of 32 bits. -/
def toUInt32? (v : Value) : Option UInt32 :=
  (v.toNat? UInt32.size).map UInt32.ofNat

/-- A whole number of 64 bits. -/
def toUInt64? (v : Value) : Option UInt64 :=
  (v.toNat? UInt64.size).map UInt64.ofNat

/-- A whole number as the nearest floating-point number. -/
def floatOfInt (n : Int) : Float :=
  if n < 0 then -(Float.ofScientific n.natAbs false 0) else Float.ofScientific n.natAbs false 0

/-- A number in floating point; a whole one is rounded. -/
def toFloat? : Value → Option Float
  | .float x => some x
  | .integer n => some (floatOfInt n)
  | _ => none

end Value

namespace Dialect

/-- The fields of a section: those of a table by name, those of a list by position.
Fields that are not there are none. A point of time counts as a table, whose keys are no
fields. -/
def fields? (d : Dialect) (names : List String) : Value → Option (List (Option Value))
  | .table entries => some (names.map fun name => Value.find? name entries)
  | .list items =>
    if items.length ≤ names.length ∨ d.allowsSurplus then
      some ((List.range names.length).map fun i => items[i]?)
    else
      none
  | .moment => some (names.map fun _ => none)
  | _ => none

/-- The value of one field, or its default. -/
def field? {α : Type} (read : Value → Option α) (standard : α) : Option (Option Value) → Option α
  | some (some v) => read v
  | _ => some standard

/-- The name of a choice: a text, or the key of a table that says nothing more. -/
def choice? (d : Dialect) : Value → Option String
  | .text s => some s
  | .table [(key, v)] => if d.saysNothing v then some key else none
  | _ => none

/-- The log format. -/
def logFormat? (d : Dialect) (v : Value) : Option LogFormat :=
  match d.choice? v with
  | some "pretty" => some .pretty
  | some "json" => some .json
  | _ => none

/-- The section on name resolution. -/
def resolver? (d : Dialect) (v : Value) : Option ResolverConfig := do
  let fs ← d.fields? ["default_port", "dns_server_port", "cache_clear_interval_ms",
    "lookup_timeout_ms"] v
  let std := ResolverConfig.standard
  return {
    defaultPort := ← field? Value.toText? std.defaultPort fs[0]?
    dnsServerPort := ← field? Value.toText? std.dnsServerPort fs[1]?
    cacheClearIntervalMs := ← field? Value.toUInt64? std.cacheClearIntervalMs fs[2]?
    lookupTimeoutMs := ← field? Value.toUInt64? std.lookupTimeoutMs fs[3]? }

/-- The section on the breaker. -/
def breaker? (d : Dialect) (v : Value) : Option BreakerConfig := do
  let fs ← d.fields? ["min_requests", "failure_ratio", "open_duration_ms", "interval_ms",
    "max_half_open_requests"] v
  let std := BreakerConfig.standard
  return {
    minRequests := ← field? Value.toUInt32? std.minRequests fs[0]?
    failureRatio := ← field? Value.toFloat? std.failureRatio fs[1]?
    openDurationMs := ← field? Value.toUInt64? std.openDurationMs fs[2]?
    intervalMs := ← field? Value.toUInt64? std.intervalMs fs[3]?
    maxHalfOpenRequests := ← field? Value.toUInt32? std.maxHalfOpenRequests fs[4]? }

/-- The section on retries. -/
def retries? (d : Dialect) (v : Value) : Option RetryConfig := do
  let fs ← d.fields? ["base_delay_ms", "max_delay_ms", "max_attempts", "stop_at_cap",
    "jitter_ratio"] v
  let std := RetryConfig.standard
  return {
    baseDelayMs := ← field? Value.toUInt64? std.baseDelayMs fs[0]?
    maxDelayMs := ← field? Value.toUInt64? std.maxDelayMs fs[1]?
    maxAttempts := ← field? Value.toUInt32? std.maxAttempts fs[2]?
    stopAtCap := ← field? Value.toBool? std.stopAtCap fs[3]?
    jitterRatio := ← field? Value.toFloat? std.jitterRatio fs[4]? }

/-- The section on deadlines. -/
def timeouts? (d : Dialect) (v : Value) : Option TimeoutConfig := do
  let fs ← d.fields? ["call_ms"] v
  return { callMs := ← field? Value.toUInt64? TimeoutConfig.standard.callMs fs[0]? }

/-- The section on log and metrics. -/
def observability? (d : Dialect) (v : Value) : Option ObservabilityConfig := do
  let fs ← d.fields? ["log_level", "log_format", "metrics_enabled", "metrics_address"] v
  let std := ObservabilityConfig.standard
  return {
    logLevel := ← field? Value.toText? std.logLevel fs[0]?
    logFormat := ← field? d.logFormat? std.logFormat fs[1]?
    metricsEnabled := ← field? Value.toBool? std.metricsEnabled fs[2]?
    metricsAddress := ← field? Value.toText? std.metricsAddress fs[3]? }

/-- A whole configuration. -/
def config? (d : Dialect) (v : Value) : Option Config := do
  let fs ← d.fields? ["resolver", "breaker", "retries", "timeouts", "observability"] v
  return {
    resolver := ← field? d.resolver? .standard fs[0]?
    breaker := ← field? d.breaker? .standard fs[1]?
    retries := ← field? d.retries? .standard fs[2]?
    timeouts := ← field? d.timeouts? .standard fs[3]?
    observability := ← field? d.observability? .standard fs[4]? }

end Dialect

end Dialer
