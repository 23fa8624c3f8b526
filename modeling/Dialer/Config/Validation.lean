import Dialer.Config

/-!
# Validation of a configuration

Every problem is found, not only the first. A problem names its field and says what is
wrong with it; problems come in the order of the sections and fields.
-/

namespace Dialer

/-- What is wrong with a field. -/
inductive Fault where
  | invalidPort (text : String)
  | notPositive
  | ratioNotPositive
  | noTrials
  | belowBase (max base : UInt64)
  | ratioOutOfRange
  | invalidSocketAddress (text : String)
deriving DecidableEq, Repr

/-- The wording of a fault. -/
def Fault.message : Fault → String
  | .invalidPort text => "'" ++ text ++ "' is not a valid port"
  | .notPositive => "must be positive"
  | .ratioNotPositive => "must be within (0, 1]"
  | .noTrials => "must be at least 1"
  | .belowBase max base =>
    Nat.repr max.toNat ++ " is smaller than base_delay_ms " ++ Nat.repr base.toNat
  | .ratioOutOfRange => "must be within [0, 1]"
  | .invalidSocketAddress text => "'" ++ text ++ "' is not a socket address"

/-- A problem with one field of a configuration. -/
structure ValidationError where
  field : String
  fault : Fault
deriving DecidableEq, Repr

namespace ValidationError

/-- The message of a problem. -/
def message (e : ValidationError) : String :=
  e.field ++ ": " ++ e.fault.message

/-- The messages of several problems. -/
def messages (errors : List ValidationError) : String :=
  ", ".intercalate (errors.map message)

end ValidationError

/-- Is the text a port: a number below `2 ^ 16`? -/
def isPort (text : String) : Bool :=
  (Text.unsignedBelow? UInt16.size text.toList).isSome

namespace Config

/-- A problem, unless the condition holds. -/
def require (condition : Bool) (field : String) (fault : Fault) : List ValidationError :=
  if condition then [] else [⟨field, fault⟩]

/-- The problems of name resolution. -/
def resolverErrors (c : ResolverConfig) : List ValidationError :=
  require (isPort c.defaultPort) "resolver.default_port" (.invalidPort c.defaultPort)
    ++ require (isPort c.dnsServerPort) "resolver.dns_server_port" (.invalidPort c.dnsServerPort)
    ++ require (c.cacheClearIntervalMs != 0) "resolver.cache_clear_interval_ms" .notPositive
    ++ require (c.lookupTimeoutMs != 0) "resolver.lookup_timeout_ms" .notPositive

/-- The problems of the breaker. -/
def breakerErrors (c : BreakerConfig) : List ValidationError :=
  require (0.0 < c.failureRatio && c.failureRatio ≤ 1.0) "breaker.failure_ratio" .ratioNotPositive
    ++ require (c.openDurationMs != 0) "breaker.open_duration_ms" .notPositive
    ++ require (c.maxHalfOpenRequests != 0) "breaker.max_half_open_requests" .noTrials

/-- The problems of retries. -/
def retryErrors (c : RetryConfig) : List ValidationError :=
  require (c.baseDelayMs != 0) "retries.base_delay_ms" .notPositive
    ++ require (c.maxDelayMs != 0) "retries.max_delay_ms" .notPositive
    ++ require (c.baseDelayMs ≤ c.maxDelayMs) "retries.max_delay_ms"
      (.belowBase c.maxDelayMs c.baseDelayMs)
    ++ require (0.0 ≤ c.jitterRatio && c.jitterRatio ≤ 1.0) "retries.jitter_ratio" .ratioOutOfRange

/-- The problems of log and metrics. The address matters only if metrics are served. -/
def observabilityErrors (c : ObservabilityConfig) : List ValidationError :=
  require (!c.metricsEnabled || Ip.isSocketAddress c.metricsAddress.toList)
    "observability.metrics_address" (.invalidSocketAddress c.metricsAddress)

/-- All problems of a configuration. -/
def errors (c : Config) : List ValidationError :=
  resolverErrors c.resolver ++ breakerErrors c.breaker ++ retryErrors c.retries
    ++ observabilityErrors c.observability

/-- Accepts a configuration without problems. -/
def validate (c : Config) : Except (List ValidationError) Config :=
  if c.errors.isEmpty then .ok c else .error c.errors

end Config

end Dialer
