import Dialer.Breaker.Desk

/-!
# Rules to trip by

Ready-made predicates that say when the failures counted open a circuit. A rule may raise
instead of an answer, as a predicate of the user's own may.
-/

namespace Dialer

/-- When a circuit opens. -/
inductive TripRule where
  /-- So many requests, and a share of failures. -/
  | ratio (minRequests : Nat) (share : Float)
  /-- So many failures in a row. -/
  | consecutive (limit : Nat)
  /-- So many failures. -/
  | total (limit : Nat)
  /-- More failures than so many; at exactly so many the rule raises. -/
  | raisesAt (failures : Nat)

/-- What a rule says of the counts. -/
def TripRule.holds : TripRule → Counts → Reply Bool
  | .ratio n share, c => .returned (c.reaches n share)
  | .consecutive n, c => .returned (decide (n ≤ c.failureRun))
  | .total n, c => .returned (decide (n ≤ c.failures))
  | .raisesAt n, c => if c.failures = n then .raised else .returned (decide (n < c.failures))

end Dialer
