import Dialer.Proofs.Backoff
import Dialer.Operation
import Dialer.Retry

/-!
# Which attempt is the last

The attempts of a session are numbered from zero here, by how many came before them. Whether an
attempt is the last one depends on its number and its result alone (`RetryPolicy.Stops`), and so
does what the session then ends with (`RetryPolicy.verdict`): the result itself, or the error
wrapped if it was the last attempt allowed.

A policy in use differs from the one that the session began with only in its generator, which has
drawn one delay for each attempt before (`RetryPolicy.Used`). With such a policy
`RetryPolicy.continueAfter` gives up exactly where an attempt stops.
-/

namespace Dialer.RetryPolicy

open Backoff

/-- The pause behind the attempt of a number. -/
def delayAt (p : RetryPolicy) (k : Nat) : Duration :=
  Backoff.delayAt p.backoff.base p.backoff.max k

/-- The attempt of a number ends the session if this is its result. -/
def Stops (p : RetryPolicy) (k : Nat) : CallResult → Prop
  | .ok _ => True
  | .error error =>
    error.kind.isTerminal = true ∨
      (0 < p.maxAttempts.toNat ∧ p.maxAttempts.toNat ≤ k + 1) ∨
      (p.stopAtCap = true ∧ p.delayAt k = p.backoff.max)

/-- What a session ends with at the attempt of a number. -/
def verdict (p : RetryPolicy) (k : Nat) : CallResult → CallResult
  | .ok value => .ok value
  | .error error =>
    if error.kind.isTerminal = false ∧ p.maxAttempts.toNat = k + 1 then
      .error (.retriesExhausted p.maxAttempts error)
    else .error error

/-- The only errors that a session makes itself say that the attempts allowed were used up, and
they are of the kind of a failure. -/
theorem wrapped_of_verdict {p : RetryPolicy} {k : Nat} {result : CallResult} {error : CallError}
    (hverdict : p.verdict k result = .error error) (hwrapped : result ≠ .error error) :
    ∃ last, result = .error last ∧ error = .retriesExhausted p.maxAttempts last ∧
      p.maxAttempts.toNat = k + 1 ∧ error.kind = .failure := by
  cases result with
  | ok value => cases hverdict
  | error last =>
      unfold verdict at hverdict
      dsimp only at hverdict
      split at hverdict
      · rename_i hlast
        cases hverdict
        refine ⟨last, rfl, rfl, hlast.2, ?_⟩
        have hkind := hlast.1
        simp only [OutcomeKind.isTerminal, bne_eq_false_iff_eq] at hkind
        exact hkind
      · exact absurd hverdict hwrapped

/-- A policy that has drawn the delays of a number of attempts. -/
structure Used (p : RetryPolicy) (k : Nat) (q : RetryPolicy) : Prop where
  maxAttempts : q.maxAttempts = p.maxAttempts
  stopAtCap : q.stopAtCap = p.stopAtCap
  drawn : Drawn p.backoff.base p.backoff.max k q.backoff

theorem used_fresh (p : RetryPolicy) : p.Used 0 p.fresh :=
  ⟨rfl, rfl, drawn_restart p.backoff⟩

variable {p q : RetryPolicy} {k : Nat} {number : UInt32} {error : CallError}

/-- The number of an attempt still fits a word where it matters. -/
structure Numbers (p : RetryPolicy) (k : Nat) (number : UInt32) : Prop where
  number_eq : number = .ofNat (k + 1)
  allowed : p.maxAttempts.toNat = 0 ∨ k + 1 ≤ p.maxAttempts.toNat

theorem Numbers.toNat_eq (h : p.Numbers k number) (hbounded : 0 < p.maxAttempts.toNat) :
    number.toNat = k + 1 := by
  have hlt := p.maxAttempts.toNat_lt
  have hallowed := h.allowed
  rw [h.number_eq]
  exact UInt32.toNat_ofNat_of_lt' (show k + 1 < 2 ^ 32 by omega)

/-- An attempt that goes on is followed by one that is still allowed. -/
theorem Numbers.next (h : p.Numbers k number) (hgoes : ¬ p.Stops k (.error error)) :
    p.Numbers (k + 1) (number + 1) := by
  have hallowed := h.allowed
  have hnot : ¬ (0 < p.maxAttempts.toNat ∧ p.maxAttempts.toNat ≤ k + 1) :=
    fun hlast => hgoes (.inr (.inl hlast))
  refine ⟨?_, by omega⟩
  rw [h.number_eq]
  exact (UInt32.ofNat_add (k + 1) 1).symm

/-- The guard of the second decision, in numbers. -/
theorem Used.exhausted_iff (h : p.Used k q) (hnumber : p.Numbers k number) :
    (q.maxAttempts > 0 && number ≥ q.maxAttempts) = true ↔
      0 < p.maxAttempts.toNat ∧ p.maxAttempts.toNat ≤ k + 1 := by
  simp only [Bool.and_eq_true, decide_eq_true_eq, gt_iff_lt, ge_iff_le, UInt32.lt_iff_toNat_lt,
    UInt32.le_iff_toNat_le, UInt32.toNat_zero, h.maxAttempts]
  constructor
  · rintro ⟨hpos, hle⟩
    exact ⟨hpos, hnumber.toNat_eq hpos ▸ hle⟩
  · rintro ⟨hpos, hle⟩
    exact ⟨hpos, (hnumber.toNat_eq hpos).symm ▸ hle⟩

/-- The guard of the third decision: the delay that is drawn has reached the cap. -/
theorem Used.capped_iff (h : p.Used k q) :
    (q.stopAtCap && q.backoff.max ≤ q.backoff.next.1) = true ↔
      p.stopAtCap = true ∧ p.delayAt k = p.backoff.max := by
  have hle : p.delayAt k ≤ p.backoff.max := delayAt_le k
  simp only [Bool.and_eq_true, decide_eq_true_eq, h.stopAtCap, h.drawn.max_eq, h.drawn.next_eq]
  constructor
  · rintro ⟨hstop, hcap⟩
    exact ⟨hstop, Duration.le_antisymm hle hcap⟩
  · rintro ⟨hstop, hcap⟩
    exact ⟨hstop, Nat.le_of_eq (congrArg Duration.toNanos hcap.symm)⟩

/-- **A session gives up where an attempt stops.** Running out of attempts comes before the cap. -/
theorem Used.continueAfter_of_stops (h : p.Used k q) (hnumber : p.Numbers k number)
    (hstops : p.Stops k (.error error)) :
    ∃ last after, q.continueAfter number error = (.giveUp last, after) ∧
      p.verdict k (.error error) = .error last := by
  have hexhausted := h.exhausted_iff hnumber
  have hcapped := h.capped_iff
  unfold continueAfter verdict
  -- the guards in the order in which they are asked: only the second one wraps
  by_cases hterminal : error.kind.isTerminal = true
  · have hdecide : q.decide number error = (.stop .terminal, q) := if_pos hterminal
    rw [hdecide]
    exact ⟨error, q, rfl, if_neg (by simp [hterminal])⟩
  by_cases hlast : (q.maxAttempts > 0 && number ≥ q.maxAttempts) = true
  · have hdecide : q.decide number error = (.stop .exhausted, q) := by
      unfold decide
      rw [if_neg hterminal, if_pos hlast]
    have hall : p.maxAttempts.toNat = k + 1 := by
      have hallowed := hnumber.allowed
      have hreached := hexhausted.mp hlast
      omega
    have hsame : number = p.maxAttempts := by
      rw [hnumber.number_eq, ← hall, UInt32.ofNat_toNat]
    rw [hdecide, hsame]
    exact ⟨_, q, rfl, if_pos ⟨by simpa using hterminal, hall⟩⟩
  · have hcap : (q.stopAtCap && q.backoff.max ≤ q.backoff.next.1) = true := by
      rcases hstops with hkind | hreached | hcap
      · exact absurd hkind hterminal
      · exact absurd (hexhausted.mpr hreached) hlast
      · exact hcapped.mpr hcap
    have hdecide : q.decide number error =
        (.stop .capReached, { q with backoff := q.backoff.next.2 }) := by
      unfold decide
      rw [if_neg hterminal, if_neg hlast]
      exact if_pos hcap
    have hmore : p.maxAttempts.toNat ≠ k + 1 := by
      intro hall
      exact hlast (hexhausted.mpr (by omega))
    rw [hdecide]
    exact ⟨error, _, rfl, if_neg fun hall => hmore hall.2⟩

/-- Where it does not stop, a session pauses for the next delay. -/
theorem Used.continueAfter_of_goes (h : p.Used k q) (hnumber : p.Numbers k number)
    (hgoes : ¬ p.Stops k (.error error)) :
    ∃ after, q.continueAfter number error = (.pause (p.delayAt k), after) ∧
      p.Used (k + 1) after := by
  have hterminal : ¬ error.kind.isTerminal = true := fun hkind => hgoes (.inl hkind)
  have hlast : ¬ (q.maxAttempts > 0 && number ≥ q.maxAttempts) = true :=
    fun hlast => hgoes (.inr (.inl ((h.exhausted_iff hnumber).mp hlast)))
  have hcap : ¬ (q.stopAtCap && q.backoff.max ≤ q.backoff.next.1) = true :=
    fun hcap => hgoes (.inr (.inr (h.capped_iff.mp hcap)))
  have hdecide : q.decide number error =
      (.retry q.backoff.next.1, { q with backoff := q.backoff.next.2 }) := by
    unfold decide
    rw [if_neg hterminal, if_neg hlast]
    exact if_neg hcap
  unfold continueAfter
  rw [hdecide, h.drawn.next_eq]
  exact ⟨_, rfl, h.maxAttempts, h.stopAtCap, h.drawn.next⟩

end Dialer.RetryPolicy
