import Dialer.Breaker
import Dialer.Metrics
import Dialer.Operation

/-!
# A breaker in use

A desk is a breaker with the calls that have passed it and not ended yet, the metrics
it feeds, and what its hook has been told. Passing and ending are separate operations,
so calls may overlap in any way. Each use brings the callbacks along:

* the trip predicate, asked after a failure in the closed state;
* the classifier, asked whether the result of a call is a success;
* the hook, told about each transition after its metric has been counted.

Any of them may raise, and then the operation that asked it raises as well. A call that
raises or is dropped has failed, and the classifier is not asked. A call that would never
end is dropped at once.
-/

namespace Dialer

/-- The code that a breaker calls back. -/
structure BreakerCallbacks where
  trips : Counts → Reply Bool
  succeeds : Option OutcomeKind → Reply Bool
  hook : Option (Transition → Reply Unit)

namespace BreakerCallbacks

/-- Results and success-shaped errors are successes, all other errors are failures. -/
def countsAsSuccess (kind : Option OutcomeKind) : Bool :=
  match kind with
  | none | some .successShaped => true
  | some _ => false

/-- The usual callbacks: trip by a ratio, the usual classification, no hook. -/
def byRatio (minRequests : Nat) (ratio : Float) : BreakerCallbacks where
  trips counts := .returned (counts.reaches minRequests ratio)
  succeeds kind := .returned (countsAsSuccess kind)
  hook := none

/-- The callbacks that a configuration asks for. -/
def ofConfig (c : BreakerConfig) : BreakerCallbacks :=
  byRatio c.minRequests.toNat c.failureRatio

end BreakerCallbacks

/-- A breaker with what surrounds it. -/
structure Desk where
  breaker : Breaker
  metrics : Metrics
  /-- The transitions that the hook has been told, the latest first. -/
  notices : List Transition
  /-- The calls in flight, by name, each with its generation. -/
  inFlight : List (String × UInt64)

namespace Desk

/-- A desk around a new breaker. -/
def make (s : BreakerSettings) (now : Nat) : Desk :=
  ⟨.make s now, .empty, [], []⟩

/-- Counts transitions and tells the hook, until it raises. -/
def report (cb : BreakerCallbacks) (d : Desk) : List Transition → Desk × Reply Unit
  | [] => (d, .returned ())
  | t :: rest =>
    let d := { d with metrics := d.metrics.tally (.breakerTransitions d.breaker.settings.name t) }
    match cb.hook with
    | none => report cb d rest
    | some hook =>
      let d := { d with notices := t :: d.notices }
      match hook t with
      | .raised => (d, .raised)
      | .returned () => report cb d rest

/-- How an attempt to pass ends. -/
inductive Entry where
  | passed (generation : UInt64)
  | rejected (error : CallError)
  | raised

/-- Asks to pass. -/
def enter (cb : BreakerCallbacks) (d : Desk) (now : Nat) : Desk × Entry :=
  let step := d.breaker.ask now
  match report cb { d with breaker := step.breaker } step.transitions with
  | (d, .raised) => (d, .raised)
  | (d, .returned ()) =>
    match step.answer with
    | .admitted generation => (d, .passed generation)
    | .rejected error =>
      ({ d with metrics := d.metrics.tally (.breakerRejections d.breaker.settings.name) },
        .rejected error)

/-- Records an outcome. A breaker that raises does so before anything is reported; but it has
made no change that it could tell, as long as generations are told apart. -/
def record (cb : BreakerCallbacks) (d : Desk) (now : Nat) (generation : UInt64) (success : Bool) :
    Desk × Reply Unit :=
  let step := d.breaker.record now generation success cb.trips
  match report cb { d with breaker := step.breaker } step.transitions with
  | (d, .raised) => (d, .raised)
  | (d, .returned ()) => (d, step.answer)

/-- The kind of a result, none for a value. -/
def kindOf : CallResult → Option OutcomeKind
  | .ok _ => none
  | .error error => some error.kind

/-- How a call ends. -/
inductive Ending where
  | result (result : CallResult)
  | raised
  /-- It would never have ended, and was dropped. -/
  | stalled

/-- Ends a call that has passed. -/
def leave (cb : BreakerCallbacks) (d : Desk) (now : Nat) (generation : UInt64) (outcome : Outcome) :
    Desk × Ending :=
  match outcome with
  | .hangs =>
    match d.record cb now generation false with
    | (d, .raised) => (d, .raised)
    | (d, .returned ()) => (d, .stalled)
  | .raises => ((d.record cb now generation false).1, .raised)
  | .returns result =>
    match cb.succeeds (kindOf result) with
    | .raised => (d, .raised)
    | .returned success =>
      match d.record cb now generation success with
      | (d, .raised) => (d, .raised)
      | (d, .returned ()) => (d, .result result)

/-- Makes a call that takes no time. -/
def call (cb : BreakerCallbacks) (d : Desk) (now : Nat) (outcome : Outcome) : Desk × Ending :=
  match d.enter cb now with
  | (d, .passed generation) => d.leave cb now generation outcome
  | (d, .rejected error) => (d, .result (.error error))
  | (d, .raised) => (d, .raised)

/-- Makes a number of such calls. The ending of the last one stands beside the desk, before
the first one that of an earlier call, if there was one. -/
def calls (cb : BreakerCallbacks) (now : Nat) (outcome : Outcome) :
    Nat → Desk × Option Ending → Desk × Option Ending
  | 0, made => made
  | n + 1, (d, _) =>
    let (d, ending) := d.call cb now outcome
    calls cb now outcome n (d, some ending)

/-- Asks to pass for a call that stays in flight under a name. A call that was in flight
under the same name is dropped by that, and so has failed. -/
def begin (cb : BreakerCallbacks) (d : Desk) (now : Nat) (name : String) : Desk × Entry :=
  match d.enter cb now with
  | (d, .passed generation) =>
    let before := d.inFlight.lookup name
    let d := { d with inFlight := (name, generation) :: d.inFlight.filter (·.1 != name) }
    match before with
    | some older => ((d.record cb now older false).1, .passed generation)
    | none => (d, .passed generation)
  | other => other

/-- The call in flight under a name, taken out. -/
def take? (d : Desk) (name : String) : Option (UInt64 × Desk) :=
  (d.inFlight.lookup name).map fun generation =>
    (generation, { d with inFlight := d.inFlight.filter (·.1 != name) })

/-- Ends the call in flight under a name, if there is one. -/
def finish? (cb : BreakerCallbacks) (d : Desk) (now : Nat) (name : String) (outcome : Outcome) :
    Option (Desk × Ending) :=
  (d.take? name).map fun (generation, d) => d.leave cb now generation outcome

/-- Drops the call in flight under a name, if there is one. -/
def drop? (cb : BreakerCallbacks) (d : Desk) (now : Nat) (name : String) :
    Option (Desk × Reply Unit) :=
  (d.take? name).map fun (generation, d) => d.record cb now generation false

/-- The state of the circuit. -/
def observe (cb : BreakerCallbacks) (d : Desk) (now : Nat) : Desk × Reply CircuitState :=
  let step := d.breaker.observe now
  match report cb { d with breaker := step.breaker } step.transitions with
  | (d, .raised) => (d, .raised)
  | (d, .returned ()) => (d, .returned step.answer)

end Desk

end Dialer
