import Dialer.Breaker.Desk
import Dialer.Resolver.Registry
import Dialer.Retry

/-!
# Connections

A connection is a target whose addresses are kept up to date, with a breaker of its own,
which is named after the text it was made from. Its calls stop with its token.
-/

namespace Dialer

/-- A connection. -/
structure Connection where
  target : Target
  resolver : Resolver.Handle
  /-- The outbox its addresses are published into. -/
  box : Nat
  /-- What of it the connection has seen. -/
  updates : Receiver
  breaker : Breaker
  policy : RetryPolicy
  /-- What its calls stop with. -/
  token : Token

namespace Connection

/-- How a connection appears in diagnostics. -/
def diagnostic (c : Connection) (callTimeout : Duration) : String :=
  Text.openRecord "ClientConnection" [
    ("target", c.target.diagnostic),
    ("breaker", Text.quoted c.breaker.settings.name),
    ("call_timeout", callTimeout.render)]

end Connection

/-- A connection in use: with the exchange that resolves for it, and how calls go on it. -/
structure Line where
  exchange : Resolver.Exchange
  connection : Connection
  callbacks : BreakerCallbacks
  /-- How long one attempt may take. -/
  callTimeout : Duration
  jitterRatio : Float
  /-- The draw made for each retry, by the number of retries before it. -/
  draw : Nat → Float

namespace Line

/-- The time. -/
def now (l : Line) : Nat :=
  l.exchange.now

/-- Are the connection's calls cancelled? -/
def isCancelled (l : Line) : Bool :=
  l.exchange.shared.isCancelled l.connection.token

/-- The breaker with the metrics that it feeds. -/
def desk (l : Line) : Desk :=
  ⟨l.connection.breaker, l.exchange.shared.metrics, [], []⟩

/-- Puts the breaker and the metrics back. -/
def withDesk (l : Line) (d : Desk) : Line :=
  { l with
    connection := { l.connection with breaker := d.breaker }
    exchange := l.exchange.apply fun s => { s with metrics := d.metrics } }

/-- Asks the breaker to pass. -/
def enter (l : Line) : Line × Desk.Entry :=
  let (d, entry) := l.desk.enter l.callbacks l.now
  (l.withDesk d, entry)

/-- Ends an attempt that has passed. -/
def leave (l : Line) (generation : UInt64) (outcome : Outcome) : Line × Desk.Ending :=
  let (d, ending) := l.desk.leave l.callbacks l.now generation outcome
  (l.withDesk d, ending)

/-- Drops an attempt that has passed, which is a failure. -/
def abandon (l : Line) (generation : UInt64) : Line :=
  l.withDesk (l.desk.record l.callbacks l.now generation false).1

/-- The state of the circuit. -/
def observe (l : Line) : Line × Reply CircuitState :=
  let (d, state) := l.desk.observe l.callbacks l.now
  (l.withDesk d, state)

/-- Asks for fresh addresses if a result says that the transport is closing. -/
def heed (l : Line) : CallResult → Line
  | .error (.transportClosing _) =>
    { l with exchange := l.exchange.refresh l.connection.resolver 1 }
  | _ => l

/-- The delay before the next retry, which is counted. The delays of a connection are configured in
milliseconds of 64 bits, so jitter leaves them in range. -/
def schedule (l : Line) (delay : Duration) : Line × Duration :=
  let drawn := l.draw (l.exchange.shared.metrics.count .retries)
  ({ l with exchange := l.exchange.apply fun s => { s with metrics := s.metrics.tally .retries } },
    Backoff.jittered delay l.jitterRatio drawn)

end Line

end Dialer
