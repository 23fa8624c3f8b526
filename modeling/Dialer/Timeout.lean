import Dialer.Operation

/-!
# Deadlines of a single call

A call with a deadline ends with its own result if that is there by the deadline, the
instant of the deadline included, and with a timeout otherwise. A limit of zero means
no deadline, and a limit beyond all instants is never reached.
-/

namespace Dialer.Timeout

/-- The deadline of a call begun now, if it has one. -/
def deadline? (limit : Duration) (now : Nat) : Option Nat :=
  if limit.isZero then none else Clock.deadline? now limit

/-- How a call under a deadline ends. -/
inductive Ending where
  | own (outcome : Outcome) (time : Nat)
  | timedOut (time : Nat)
  | never

/-- Runs one attempt under a limit. -/
def run (limit : Duration) (attempt : Behaviour) (now : Nat) : Ending :=
  match attempt.endsAt now, deadline? limit now with
  | some t, some d => if t ≤ d then .own attempt.outcome t else .timedOut d
  | some t, none => .own attempt.outcome t
  | none, some d => .timedOut d
  | none, none => .never

end Dialer.Timeout
