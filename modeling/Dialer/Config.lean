import Dialer.Duration
import Dialer.Target

/-!
# Configuration

The settings of a connector, in five sections, each field with its default. Times are
kept in milliseconds as they are written; the durations they stand for are derived.
-/

namespace Dialer

/-- Name resolution. -/
structure ResolverConfig where
  /-- The port of a target that names none. -/
  defaultPort : String
  /-- The port of a nameserver that names none. -/
  dnsServerPort : String
  /-- Milliseconds between clears of the address cache. -/
  cacheClearIntervalMs : UInt64
  /-- Milliseconds that one lookup may take. -/
  lookupTimeoutMs : UInt64

/-- The circuit breaker of each connection. -/
structure BreakerConfig where
  /-- Requests needed in the rolling window before the circuit may open. -/
  minRequests : UInt32
  /-- The share of failures at which it opens. -/
  failureRatio : Float
  /-- Milliseconds that it stays open. -/
  openDurationMs : UInt64
  /-- Milliseconds of the rolling window; zero stands for twice the open duration. -/
  intervalMs : UInt64
  /-- Trial calls while half-open. -/
  maxHalfOpenRequests : UInt32

/-- Retries. -/
structure RetryConfig where
  baseDelayMs : UInt64
  maxDelayMs : UInt64
  /-- Attempts of a call, the first included; zero means any number. -/
  maxAttempts : UInt32
  /-- Stop once the delay has reached its cap? -/
  stopAtCap : Bool
  /-- The part of a delay that may be added to it at random. -/
  jitterRatio : Float

/-- Deadlines. -/
structure TimeoutConfig where
  /-- Milliseconds that one attempt may take; zero means any time. -/
  callMs : UInt64

/-- How the log is written. -/
inductive LogFormat where
  | pretty
  | json
deriving DecidableEq, Repr

/-- Log and metrics. -/
structure ObservabilityConfig where
  logLevel : String
  logFormat : LogFormat
  metricsEnabled : Bool
  /-- The address that metrics are served on. -/
  metricsAddress : String

/-- All settings. -/
structure Config where
  resolver : ResolverConfig
  breaker : BreakerConfig
  retries : RetryConfig
  timeouts : TimeoutConfig
  observability : ObservabilityConfig

/-- The name of a log format. -/
def LogFormat.name : LogFormat → String
  | .pretty => "pretty"
  | .json => "json"

namespace ResolverConfig

/-- The default section. -/
def standard : ResolverConfig := ⟨"443", "53", 30000, 5000⟩

/-- The time between clears of the cache. -/
def cacheClearInterval (c : ResolverConfig) : Duration := .ofMillis64 c.cacheClearIntervalMs

/-- The time that one lookup may take. -/
def lookupTimeout (c : ResolverConfig) : Duration := .ofMillis64 c.lookupTimeoutMs

/-- The ports of targets that name none. -/
def ports (c : ResolverConfig) : DefaultPorts := ⟨c.defaultPort, c.dnsServerPort⟩

end ResolverConfig

namespace BreakerConfig

/-- The default section. -/
def standard : BreakerConfig := ⟨100, 0.6, 60000, 0, 10⟩

/-- How long a circuit stays open. -/
def openDuration (c : BreakerConfig) : Duration := .ofMillis64 c.openDurationMs

/-- The rolling window. -/
def interval (c : BreakerConfig) : Duration :=
  if c.intervalMs = 0 then
    .ofMillis (2 * c.openDurationMs.toNat) (by have := c.openDurationMs.toNat_lt; omega)
  else
    .ofMillis64 c.intervalMs

end BreakerConfig

namespace RetryConfig

/-- The default section. -/
def standard : RetryConfig := ⟨200, 30000, 3, false, 0.0⟩

/-- The first delay. -/
def baseDelay (c : RetryConfig) : Duration := .ofMillis64 c.baseDelayMs

/-- The cap of the delays. -/
def maxDelay (c : RetryConfig) : Duration := .ofMillis64 c.maxDelayMs

end RetryConfig

namespace TimeoutConfig

/-- The default section. -/
def standard : TimeoutConfig := ⟨60000⟩

/-- The time that one attempt may take. -/
def callTimeout (c : TimeoutConfig) : Duration := .ofMillis64 c.callMs

end TimeoutConfig

namespace ObservabilityConfig

/-- The default section. -/
def standard : ObservabilityConfig := ⟨"info", .pretty, false, "127.0.0.1:9090"⟩

end ObservabilityConfig

/-- The default configuration. -/
def Config.standard : Config :=
  ⟨.standard, .standard, .standard, .standard, .standard⟩

end Dialer
