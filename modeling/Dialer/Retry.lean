import Dialer.Backoff
import Dialer.CallError
import Dialer.Config

/-!
# Retry policy

After a failed attempt the policy decides, in this order:

1. an error of a terminal kind stops the session;
2. so does the last of a bounded number of attempts;
3. otherwise the next delay is drawn, and stops the session if it has reached the cap
   and the policy says to stop there;
4. otherwise the attempt is repeated after the delay.

Only the third step draws, so decisions of the first two kinds leave the policy as it is.
-/

namespace Dialer

/-- Why a session stops. -/
inductive StopReason where
  | terminal
  | exhausted
  | capReached
deriving DecidableEq, Repr

/-- The name of a reason. -/
def StopReason.name : StopReason → String
  | .terminal => "Terminal"
  | .exhausted => "Exhausted"
  | .capReached => "CapReached"

/-- What to do after a failed attempt. -/
inductive RetryDecision where
  | retry (delay : Duration)
  | stop (reason : StopReason)
deriving DecidableEq

/-- When to repeat a failed attempt. -/
structure RetryPolicy where
  backoff : Backoff
  /-- Attempts of a session, the first included; zero means any number. -/
  maxAttempts : UInt32
  /-- Stop once the delay has reached its cap? -/
  stopAtCap : Bool
deriving DecidableEq

namespace RetryPolicy

/-- A policy with bounds for its delays, and no other limit. -/
def make (base max : Duration) : Except BackoffError RetryPolicy := do
  let backoff ← Backoff.make base max
  return ⟨backoff, 0, false⟩

/-- The policy that a configuration asks for. -/
def ofConfig (c : RetryConfig) : Except BackoffError RetryPolicy := do
  let policy ← make c.baseDelay c.maxDelay
  return { policy with maxAttempts := c.maxAttempts, stopAtCap := c.stopAtCap }

/-- The same policy for a new session. -/
def fresh (p : RetryPolicy) : RetryPolicy :=
  { p with backoff := p.backoff.restart }

/-- The decision after the attempt of the given number, counted from one. -/
def decide (p : RetryPolicy) (attempt : UInt32) (error : CallError) :
    RetryDecision × RetryPolicy :=
  if error.kind.isTerminal then (.stop .terminal, p)
  else if p.maxAttempts > 0 && attempt ≥ p.maxAttempts then (.stop .exhausted, p)
  else
    let (delay, backoff) := p.backoff.next
    let after := { p with backoff := backoff }
    if p.stopAtCap && p.backoff.max ≤ delay then (.stop .capReached, after)
    else (.retry delay, after)

/-- What becomes of a session after a failed attempt: it pauses, or it ends with an
error. Running out of attempts wraps the last error. -/
inductive Continuation where
  | pause (delay : Duration)
  | giveUp (error : CallError)

/-- Continues a session by the policy's decision. -/
def continueAfter (p : RetryPolicy) (attempt : UInt32) (error : CallError) :
    Continuation × RetryPolicy :=
  match p.decide attempt error with
  | (.retry delay, p) => (.pause delay, p)
  | (.stop .exhausted, p) => (.giveUp (.retriesExhausted attempt error), p)
  | (.stop _, p) => (.giveUp error, p)

end RetryPolicy

end Dialer
