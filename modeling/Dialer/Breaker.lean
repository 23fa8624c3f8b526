import Dialer.Breaker.Counts
import Dialer.Breaker.State
import Dialer.CallError
import Dialer.Clock
import Dialer.Config

/-!
# Circuit breaker

    closed    → open       a failure is recorded and the trip predicate holds
    open      → half-open  the open period is over
    half-open → closed     as many successes in a row as there are trials
    half-open → open       any failure

Counts belong to a *generation*. A change of state begins a new one, and so does the
end of a rolling interval in the closed state; an outcome that comes in for an ended
generation is ignored. Changes due by time are applied by whatever operation comes
next (`Breaker.refresh`).

The end of a generation is worked out when it has begun already, and that raises if no
instant can hold it (`Breaker.endFits`). So a change of state may be made and not told
(`Breaker.change`), and an open period may be left with the end of the generation before,
or with none.

Three operations make up the use of a breaker, each at a given instant:

* `Breaker.ask` — before a call: its generation, or a rejection;
* `Breaker.record` — after it: success or failure, for the generation it was admitted in;
* `Breaker.observe` — the state.

Each also yields the transitions it made and can tell, in order.
-/

namespace Dialer

/-- What a callback did: it returned a value, or it raised and returned nothing. -/
inductive Reply (α : Type) where
  | returned (value : α)
  | raised
deriving DecidableEq, Repr

/-- The fixed parameters of a breaker. -/
structure BreakerSettings where
  name : String
  /-- Trial calls while half-open, and the successes needed to close. -/
  maxHalfOpen : UInt32
  /-- The rolling window of the closed state; an empty one never ends. -/
  interval : Duration
  /-- How long the circuit stays open. -/
  openDuration : Duration
deriving DecidableEq

namespace BreakerSettings

/-- The settings of a breaker for which only the name is given. -/
def standard (name : String) : BreakerSettings :=
  ⟨name, 10, .ofSecs 120, .ofSecs 60⟩

/-- The settings that a configuration asks for. -/
def ofConfig (name : String) (c : BreakerConfig) : BreakerSettings :=
  ⟨name, c.maxHalfOpenRequests, c.interval, c.openDuration⟩

/-- How settings appear in diagnostics. -/
def diagnostic (s : BreakerSettings) : String :=
  Text.openRecord "BreakerSettings" [
    ("name", Text.quoted s.name),
    ("max_half_open_requests", Nat.repr s.maxHalfOpen.toNat),
    ("interval", s.interval.render),
    ("open_duration", s.openDuration.render)]

/-- The number of trials: at least one. -/
def trials (s : BreakerSettings) : Nat :=
  max 1 s.maxHalfOpen.toNat

end BreakerSettings

/-- A circuit breaker. -/
structure Breaker where
  settings : BreakerSettings
  state : CircuitState
  generation : UInt64
  counts : Counts
  /-- The end of the rolling window (closed) or of the open period (open). -/
  expiry : Option Nat
deriving DecidableEq

namespace Breaker

/-- When a rolling window that begins now ends. An empty interval never does. -/
def windowEnd (s : BreakerSettings) (now : Nat) : Option Nat :=
  if s.interval.isZero then none else some (Clock.after now s.interval)

/-- Can an instant hold the end of a generation that begins now? Not every one has an end. -/
def endFits (s : BreakerSettings) (state : CircuitState) (now : Nat) : Bool :=
  match state with
  | .closed => s.interval.isZero || (Clock.instant? now s.interval).isSome
  | .opened => (Clock.instant? now s.openDuration).isSome
  | .halfOpen => true

/-- A breaker made now: closed, in its first generation. -/
def make (s : BreakerSettings) (now : Nat) : Breaker :=
  ⟨s, .closed, 0, .zero, windowEnd s now⟩

/-- Makes a breaker, which raises if no instant can hold the end of its first window. -/
def make? (s : BreakerSettings) (now : Nat) : Reply Breaker :=
  if endFits s .closed now then .returned (make s now) else .raised

/-- Begins a new generation in the given state. If its end raises, the end of the generation
before is left. That of a window is put down all the same: no clock comes to it, and there was
none before. (A clock that has run half its range, a hundred and forty thousand million years, could
begin window after window like this, and raise every time; it is left out.) -/
def enter (b : Breaker) (state : CircuitState) (now : Nat) : Breaker :=
  { b with
    state := state
    generation := b.generation + 1
    counts := .zero
    expiry :=
      match state with
      | .closed => windowEnd b.settings now
      | .opened => (Clock.instant? now b.settings.openDuration).or b.expiry
      | .halfOpen => none }

/-- Is the generation over by time? -/
def isExpired (b : Breaker) (now : Nat) : Bool :=
  match b.expiry with
  | some t => t ≤ now
  | none => false

/-- Applies the change that is due by time. -/
def refresh (b : Breaker) (now : Nat) : Breaker × List Transition :=
  if b.isExpired now then
    match b.state with
    | .closed => (b.enter .closed now, [])
    | .opened => (b.enter .halfOpen now, [⟨.opened, .halfOpen⟩])
    | .halfOpen => (b, [])
  else
    (b, [])

/-- The answer to a call that asks to pass. -/
inductive Admission where
  | admitted (generation : UInt64)
  | rejected (error : CallError)
deriving DecidableEq

/-- Does the breaker, as it stands, let a call pass? -/
def check (b : Breaker) : Admission :=
  match b.state with
  | .opened => .rejected (.circuitOpen b.settings.name)
  | .halfOpen =>
    if b.counts.requests ≥ b.settings.trials then
      .rejected (.tooManyRequests b.settings.name)
    else
      .admitted b.generation
  | .closed => .admitted b.generation

/-- What an operation leaves: the breaker, the transitions made, and its answer. -/
structure Step (α : Type) where
  breaker : Breaker
  transitions : List Transition
  answer : α

/-- Changes the state. If the end of the new generation raises, the change is made but not told. -/
def change (b : Breaker) (state : CircuitState) (now : Nat) : Step (Reply Unit) :=
  if endFits b.settings state now then
    ⟨b.enter state now, [⟨b.state, state⟩], .returned ()⟩
  else
    ⟨b.enter state now, [], .raised⟩

/-- Asks to pass. -/
def ask (b : Breaker) (now : Nat) : Step Admission :=
  let (b, made) := b.refresh now
  match b.check with
  | .rejected error => ⟨b, made, .rejected error⟩
  | .admitted generation =>
    ⟨{ b with counts := b.counts.request }, made, .admitted generation⟩

/-- Records a success in the current generation. -/
def recordSuccess (b : Breaker) (now : Nat) : Step (Reply Unit) :=
  let b := { b with counts := b.counts.success }
  if b.state = .halfOpen ∧ b.counts.successRun ≥ b.settings.trials then
    b.change .closed now
  else
    ⟨b, [], .returned ()⟩

/-- Records a failure in the current generation. When the trip predicate raises, the
failure has been counted and nothing else happens. -/
def recordFailure (b : Breaker) (now : Nat) (trips : Counts → Reply Bool) :
    Step (Reply Unit) :=
  match b.state with
  | .closed =>
    let b := { b with counts := b.counts.failure }
    match trips b.counts with
    | .raised => ⟨b, [], .raised⟩
    | .returned true => b.change .opened now
    | .returned false => ⟨b, [], .returned ()⟩
  | .halfOpen => b.change .opened now
  | .opened => ⟨b, [], .returned ()⟩

/-- Records the outcome of a call admitted in the given generation. -/
def record (b : Breaker) (now : Nat) (generation : UInt64) (success : Bool)
    (trips : Counts → Reply Bool) : Step (Reply Unit) :=
  let (b, made) := b.refresh now
  if generation ≠ b.generation then
    ⟨b, made, .returned ()⟩
  else
    let s := if success then b.recordSuccess now else b.recordFailure now trips
    { s with transitions := made ++ s.transitions }

/-- The state, with the change that is due applied. -/
def observe (b : Breaker) (now : Nat) : Step CircuitState :=
  let (b, made) := b.refresh now
  ⟨b, made, b.state⟩

end Breaker

end Dialer
