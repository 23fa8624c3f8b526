import Dialer.Breaker.Counts

/-!
# Counts as a tally

What the five counters of a generation show, as a function of the number of its requests and
of the list of its outcomes (`Counts.tally`). A counter shows a number up to its ceiling
(`Counts.clamp`); the two runs are the equal outcomes at the head of the list, which has the
latest outcome first.

Each way of counting adds to the tally: `request_tally`, `success_tally`, `failure_tally`.
-/

namespace Dialer.Counts

/-- A number as a counter shows it. -/
def clamp (n : Nat) : Nat :=
  min n ceiling

/-- How many outcomes at the head of a list are the given one. -/
def headRun (outcome : Bool) (outcomes : List Bool) : Nat :=
  (outcomes.takeWhile (· == outcome)).length

/-- The counts after `requests` requests and the given outcomes, the latest first. -/
def tally (requests : Nat) (outcomes : List Bool) : Counts where
  requests := clamp requests
  successes := clamp (outcomes.count true)
  failures := clamp (outcomes.count false)
  successRun := clamp (headRun true outcomes)
  failureRun := clamp (headRun false outcomes)

theorem step_clamp (n : Nat) : step (clamp n) = clamp (n + 1) := by
  unfold step clamp
  omega

@[simp] theorem clamp_zero : clamp 0 = 0 :=
  rfl

theorem clamp_of_le {n : Nat} (h : n ≤ ceiling) : clamp n = n :=
  Nat.min_eq_left h

@[simp] theorem headRun_cons (outcome : Bool) (outcomes : List Bool) :
    headRun outcome (outcome :: outcomes) = headRun outcome outcomes + 1 := by
  simp [headRun]

/-- The other outcome ends a run. -/
theorem headRun_cons_ne {outcome other : Bool} (h : other ≠ outcome) (outcomes : List Bool) :
    headRun outcome (other :: outcomes) = 0 := by
  simp [headRun, h]

/-- Where all outcomes are successes, the run of successes is all of them. -/
theorem headRun_of_no_failure {outcomes : List Bool} (h : false ∉ outcomes) :
    headRun true outcomes = outcomes.length := by
  induction outcomes with
  | nil => rfl
  | cons outcome rest ih =>
      cases outcome with
      | false => exact absurd List.mem_cons_self h
      | true =>
          rw [headRun_cons, List.length_cons, ih (fun hmem => h (List.mem_cons_of_mem _ hmem))]

theorem request_tally (n : Nat) (outcomes : List Bool) :
    (tally n outcomes).request = tally (n + 1) outcomes := by
  simp [request, tally, step_clamp]

theorem success_tally (n : Nat) (outcomes : List Bool) :
    (tally n outcomes).success = tally n (true :: outcomes) := by
  -- a success ends the run of failures
  have hends : headRun false (true :: outcomes) = 0 := headRun_cons_ne (by decide) outcomes
  simp [success, tally, step_clamp, hends]

theorem failure_tally (n : Nat) (outcomes : List Bool) :
    (tally n outcomes).failure = tally n (false :: outcomes) := by
  have hends : headRun true (false :: outcomes) = 0 := headRun_cons_ne (by decide) outcomes
  simp [failure, tally, step_clamp, hends]

end Dialer.Counts
