/-!
# Counts of a generation

Requests and outcomes counted since the last change of generation. Counters have 32
bits and stay at their highest value (`Counts.step`).
-/

namespace Dialer

/-- Request and outcome counters. -/
structure Counts where
  requests : Nat
  successes : Nat
  failures : Nat
  /-- Successes since the last failure. -/
  successRun : Nat
  /-- Failures since the last success. -/
  failureRun : Nat
deriving DecidableEq, Repr

namespace Counts

/-- The highest value of a counter. -/
def ceiling : Nat := UInt32.size - 1

/-- One more, unless the counter is full. -/
def step (n : Nat) : Nat :=
  min (n + 1) ceiling

/-- Nothing counted yet. -/
def zero : Counts := ⟨0, 0, 0, 0, 0⟩

/-- Counts an admitted request. -/
def request (c : Counts) : Counts :=
  { c with requests := step c.requests }

/-- Counts a success. -/
def success (c : Counts) : Counts :=
  { c with successes := step c.successes, successRun := step c.successRun, failureRun := 0 }

/-- Counts a failure. -/
def failure (c : Counts) : Counts :=
  { c with failures := step c.failures, failureRun := step c.failureRun, successRun := 0 }

/-- Failures per request; zero if there was no request. -/
def failureRatio (c : Counts) : Float :=
  if c.requests = 0 then 0.0 else Float.ofNat c.failures / Float.ofNat c.requests

/-- The usual reason to open the circuit: enough requests, and a share of failures that
reached the ratio. -/
def reaches (c : Counts) (minRequests : Nat) (ratio : Float) : Bool :=
  minRequests ≤ c.requests && ratio ≤ c.failureRatio

end Counts

end Dialer
