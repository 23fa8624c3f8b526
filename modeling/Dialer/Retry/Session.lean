import Dialer.Operation
import Dialer.Retry

/-!
# Retry sessions

A session invokes an operation until it succeeds or the policy stops it, and pauses in
between. It can be cancelled from outside: at each wait, cancellation is looked at
first. The operation is invoked before that, so a session cancelled from the start has
invoked it once, and has let it do nothing.

A session is a run of small steps (`Session.step`); each one takes it to the next point
at which it waits or ends. What it has done so far is part of its state: the instants
at which the operation was invoked, and the number of retries scheduled.
-/

namespace Dialer.Retry

/-- Where a session stands. -/
inductive Phase where
  /-- About to make the attempt of this number. -/
  | ready (attempt : UInt32)
  /-- Between two attempts, until the given instant; then the attempt of this number. -/
  | pausing (resume : Nat) (attempt : UInt32)
  /-- Ended with a result. -/
  | done (result : CallResult)
  /-- Ended by an exception: of the operation, or of a pause that is out of range. -/
  | raised
  /-- Not ended when the observer left. -/
  | stalled

/-- A session under way. -/
structure Session where
  now : Nat
  policy : RetryPolicy
  phase : Phase
  /-- When the operation was invoked, the latest first. -/
  invoked : List Nat
  /-- Retries scheduled so far. -/
  retries : Nat

/-- What a session runs under. -/
structure Conditions where
  operation : Operation
  /-- The ratio of jitter, and the draw made for each retry. -/
  jitterRatio : Float
  draw : Nat → Float
  /-- When the session is cancelled, if ever. -/
  cancelledAt : Option Nat
  /-- How long the session is observed, if not for ever. -/
  observedUntil : Option Nat

/-- How a wait ends. -/
inductive Wake where
  | due (time : Nat)
  | cancelled (time : Nat)
  | left (time : Nat)

/-- Is the session cancelled by the given instant? -/
def Conditions.isCancelled (c : Conditions) (now : Nat) : Bool :=
  match c.cancelledAt with
  | some t => t ≤ now
  | none => false

/-- How a wait from now for an instant, or for ever, ends: with that instant unless a
cancellation is not later or the observer has left before. -/
def Conditions.wait (c : Conditions) (now : Nat) (due : Option Nat) : Option Wake :=
  let watched : Option Wake :=
    match due, c.observedUntil with
    | some t, some g => some (if t ≤ g then .due t else .left g)
    | some t, none => some (.due t)
    | none, some g => some (.left g)
    | none, none => none
  match c.cancelledAt, watched with
  | some x, some (.due t) => some (if x ≤ t then .cancelled (max now x) else .due t)
  | some x, some (.left g) => some (if x ≤ g then .cancelled (max now x) else .left g)
  | some x, _ => some (.cancelled (max now x))
  | none, watched => watched

namespace Session

/-- A session that begins at a given instant, with a policy as it is. -/
def startWith (policy : RetryPolicy) (now : Nat) : Session :=
  ⟨now, policy, .ready 1, [], 0⟩

/-- A session for which the policy is made anew. -/
def start (policy : RetryPolicy) (now : Nat) : Session :=
  startWith policy.fresh now

/-- Ends a session. -/
def finish (s : Session) (phase : Phase) (now : Nat) : Session :=
  { s with now := now, phase := phase }

/-- Goes on after an attempt that ended now. -/
def settle (c : Conditions) (s : Session) (attempt : UInt32) (outcome : Outcome) (now : Nat) :
    Session :=
  match outcome with
  | .hangs => s.finish .stalled now
  | .raises => s.finish .raised now
  | .returns (.ok value) => s.finish (.done (.ok value)) now
  | .returns (.error error) =>
    match s.policy.continueAfter attempt error with
    | (.giveUp error, policy) => { s with now, policy, phase := .done (.error error) }
    | (.pause delay, policy) =>
      match Backoff.jittered? delay c.jitterRatio (c.draw s.retries) with
      | some delay =>
        { s with
          now
          policy
          phase := .pausing (Clock.wake now delay) (attempt + 1)
          retries := s.retries + 1 }
      | none => { s with now, policy, phase := .raised }

/-- Makes an attempt and waits for its end. -/
def attempt (c : Conditions) (s : Session) (number : UInt32) : Session :=
  let behaviour := c.operation s.invoked.length
  let s := { s with invoked := s.now :: s.invoked }
  if c.isCancelled s.now then
    s.finish (.done (.error .cancelled)) s.now
  else if behaviour.endsAt s.now = some s.now then
    s.settle c number behaviour.outcome s.now
  else
    match c.wait s.now (behaviour.endsAt s.now) with
    | some (.due t) => s.settle c number behaviour.outcome t
    | some (.cancelled t) => s.finish (.done (.error .cancelled)) t
    | some (.left t) => s.finish .stalled t
    | none => s.finish .stalled s.now

/-- Waits for the end of a pause. -/
def pause (c : Conditions) (s : Session) (resume : Nat) (number : UInt32) : Session :=
  match c.wait s.now (some resume) with
  | some (.due t) => s.finish (.ready number) t
  | some (.cancelled t) => s.finish (.done (.error .cancelled)) t
  | some (.left t) => s.finish .stalled t
  | none => s.finish .stalled s.now

/-- The next step of a session; one that has ended makes none. -/
def step (c : Conditions) (s : Session) : Session :=
  match s.phase with
  | .ready number => s.attempt c number
  | .pausing resume number => s.pause c resume number
  | _ => s

/-- Has the session ended? -/
def isOver (s : Session) : Bool :=
  match s.phase with
  | .ready _ | .pausing _ _ => false
  | _ => true

/-- A number of steps. -/
def run (c : Conditions) : Nat → Session → Session
  | 0, s => s
  | n + 1, s => if s.isOver then s else run c n (s.step c)

/-- Runs an operation that plays a script: each attempt takes two steps, and the attempt
behind the script's end is the last. -/
def runScript (c : Conditions) (script : List Behaviour) (s : Session) : Session :=
  run { c with operation := .ofScript script } (2 * script.length + 2) s

end Session

end Dialer.Retry
