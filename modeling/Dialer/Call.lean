import Dialer.Connection
import Dialer.Timeout

/-!
# Calls on a connection

A call makes attempts until one succeeds or the retry policy stops it:

    ready → running → over                   it passed the breaker and ended well
    ready → running → pausing → ready        it failed, and is tried again
    ready → over                             the breaker rejected it
    any   → over                             the connection's token is cancelled

An attempt invokes the operation first; what that gives begins to run only if the call is
not cancelled and the breaker lets the attempt pass. A running attempt ends by itself or at
its deadline, and the breaker hears of every one that began. Whenever a call goes on, it
looks at its token first.
-/

namespace Dialer

/-- An attempt that runs. -/
structure Attempt where
  /-- The generation it was let pass in. -/
  generation : UInt64
  outcome : Outcome
  endsAt : Option Nat
  deadline : Option Nat

/-- Where a call stands. -/
inductive CallPhase where
  /-- About to make the attempt of this number. -/
  | ready (attempt : UInt32)
  | running (attempt : UInt32) (work : Attempt)
  /-- Between two attempts, until the given instant; then the attempt of this number. -/
  | pausing (resume : Nat) (attempt : UInt32)
  | over (result : CallResult)
  /-- Ended by an exception of the operation. -/
  | raised

/-- A call. -/
structure Call where
  operation : Operation
  policy : RetryPolicy
  phase : CallPhase
  /-- How often the operation was invoked. -/
  made : Nat
  /-- When an attempt began to run, the latest first. -/
  begun : List Nat
  /-- When the call ended. -/
  ended : Nat

namespace Call

/-- A call that has not done anything yet. -/
def start (operation : Operation) (policy : RetryPolicy) : Call :=
  ⟨operation, policy.fresh, .ready 1, 0, [], 0⟩

/-- Has the call ended? -/
def isOver (c : Call) : Bool :=
  match c.phase with
  | .over _ | .raised => true
  | _ => false

/-- Ends a call. -/
def finish (c : Call) (l : Line) (phase : CallPhase) : Call :=
  { c with phase, ended := l.now }

/-- Goes on after an attempt that ended with a result. -/
def settle (c : Call) (l : Line) (attempt : UInt32) (result : CallResult) : Call × Line :=
  match result with
  | .ok value => (c.finish l (.over (.ok value)), l)
  | .error error =>
    match c.policy.continueAfter attempt error with
    | (.giveUp error, policy) => ({ c with policy }.finish l (.over (.error error)), l)
    | (.pause delay, policy) =>
      let (l, delay) := l.schedule delay
      ({ c with policy, phase := .pausing (Clock.wake l.now delay) (attempt + 1) }, l)

/-- Ends a running attempt. -/
def conclude (c : Call) (l : Line) (attempt : UInt32) (work : Attempt) (outcome : Outcome) :
    Call × Line :=
  match l.leave work.generation outcome with
  | (l, .result result) => c.settle (l.heed result) attempt result
  | (l, _) => (c.finish l .raised, l)

/-- Goes on with a running attempt: its own end comes before its deadline. -/
def proceed (c : Call) (l : Line) (attempt : UInt32) (work : Attempt) : Call × Line :=
  if Resolver.Watch.isPast l.now work.endsAt then c.conclude l attempt work work.outcome
  else if Resolver.Watch.isPast l.now work.deadline then
    c.conclude l attempt work (.returns (.error (.timeout l.callTimeout)))
  else ({ c with phase := .running attempt work }, l)

/-- Makes an attempt. -/
def make (c : Call) (l : Line) (attempt : UInt32) : Call × Line :=
  match l.enter with
  | (l, .passed generation) =>
    let behaviour := c.operation c.made
    let work : Attempt :=
      ⟨generation, behaviour.outcome, behaviour.endsAt l.now, Timeout.deadline? l.callTimeout l.now⟩
    { c with made := c.made + 1, begun := l.now :: c.begun }.proceed l attempt work
  | (l, .rejected error) => { c with made := c.made + 1 }.settle l attempt (.error error)
  | (l, .raised) => ({ c with made := c.made + 1 }.finish l .raised, l)

/-- Stops a call: a running attempt is dropped. -/
def cancel (c : Call) (l : Line) : Call × Line :=
  match c.phase with
  | .ready _ => ({ c with made := c.made + 1 }.finish l (.over (.error .cancelled)), l)
  | .running _ work =>
    let l := l.abandon work.generation
    (c.finish l (.over (.error .cancelled)), l)
  | .pausing _ _ => (c.finish l (.over (.error .cancelled)), l)
  | .over _ | .raised => (c, l)

/-- One step. -/
def step (c : Call) (l : Line) : Call × Line :=
  if l.isCancelled then c.cancel l
  else
    match c.phase with
    | .ready attempt => c.make l attempt
    | .running attempt work => c.proceed l attempt work
    | .pausing resume attempt =>
      if resume ≤ l.now then ({ c with phase := .ready attempt }, l) else (c, l)
    | .over _ | .raised => (c, l)

/-- Goes on as far as it can. Two steps do: the end of a pause and the attempt behind it. -/
def goOn (c : Call) (l : Line) : Call × Line :=
  let (c, l) := c.step l
  c.step l

/-- Gives a call up before it has ended. -/
def abandon (c : Call) (l : Line) : Line :=
  match c.phase with
  | .running _ work => l.abandon work.generation
  | _ => l

/-- The instants at which the call can go on by itself. -/
def wakes (c : Call) : List Nat :=
  match c.phase with
  | .running _ work => work.endsAt.toList ++ work.deadline.toList
  | .pausing resume _ => [resume]
  | _ => []

/-- Lets the calls of a list go on, one after the other. -/
def goOnAll : List Call → Line → List Call × Line
  | [], l => ([], l)
  | c :: rest, l =>
    let (c, l) := c.goOn l
    let (rest, l) := goOnAll rest l
    (c :: rest, l)

end Call

end Dialer
