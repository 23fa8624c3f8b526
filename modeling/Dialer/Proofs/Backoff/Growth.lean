import Dialer.Proofs.Backoff
import Mathlib.Algebra.Ring.Nat

/-!
# The growth of a backoff

Below the width of a word the delay with index `k` is `base * 2 ^ k`, cut at the cap
(`toNanos_delayAt`), so each delay is twice the one before it until the cap cuts it. From index 32
on the delay is the cap, wherever the product is by then. For bounds that far apart this is a
jump (`delays_double`).
-/

namespace Dialer

namespace Backoff

variable {base max : Duration} {b : Backoff}

/-! ## Delays by index -/

/-- Two bounds make a generator where they are positive and in order. -/
theorem make_eq_ok_iff :
    make base max = .ok b ↔ 0 < base.toNanos ∧ base ≤ max ∧ b = ⟨base, max, 0⟩ := by
  simp only [make, Duration.isZero_iff, Duration.lt_def, Duration.le_def]
  split
  · simp only [reduceCtorEq, false_iff]
    omega
  split
  · simp only [reduceCtorEq, false_iff]
    omega
  split
  · simp only [reduceCtorEq, false_iff]
    omega
  · rw [Except.ok.injEq, eq_comm]
    exact ⟨fun h => ⟨by omega, by omega, h⟩, fun h => h.2.2⟩

theorem delayAt_of_ge {k : Nat} (h : 32 ≤ k) : delayAt base max k = max :=
  if_neg (Nat.not_lt.mpr h)

theorem toNanos_delayAt {k : Nat} (h : k < 32) :
    (delayAt base max k).toNanos = min (base.toNanos * 2 ^ k) max.toNanos := by
  have hindex : (UInt32.ofNat k).toNat = k :=
    UInt32.toNat_ofNat_of_lt' (show k < 2 ^ 32 by omega)
  rw [delayAt_eq hindex, toNanos_delay (hindex.symm ▸ h), hindex, Nat.one_shiftLeft]

/-- The first delay is the base. -/
theorem delayAt_zero (h : base ≤ max) : delayAt base max 0 = base := by
  rw [← Duration.toNanos_inj, toNanos_delayAt (by omega), Nat.pow_zero, Nat.mul_one]
  exact Nat.min_eq_left h

theorem delayAt_mono {j k : Nat} (hjk : j ≤ k) : delayAt base max j ≤ delayAt base max k := by
  by_cases hk : k < 32
  · rw [Duration.le_def, toNanos_delayAt (Nat.lt_of_le_of_lt hjk hk), toNanos_delayAt hk]
    have hproduct := Nat.mul_le_mul_left base.toNanos (Nat.pow_le_pow_right Nat.two_pos hjk)
    omega
  · rw [delayAt_of_ge (Nat.le_of_not_lt hk)]
    exact delayAt_le j

/-! ## Delays of a generator -/

/-- The delay that a generator hands out after a number of others. -/
def nth (b : Backoff) (k : Nat) : Duration :=
  (b.take k).2.next.1

theorem take_succ (n : Nat) (b : Backoff) :
    b.take (n + 1) = (b.next.1 :: (b.next.2.take n).1, (b.next.2.take n).2) := by
  rw [take]

/-- What `take` hands out are the delays one after another. -/
theorem take_eq_nth (b : Backoff) (n : Nat) : (b.take n).1 = (List.range n).map b.nth := by
  induction n generalizing b with
  | zero => rfl
  | succ n ih =>
      have htail : (List.range n).map b.next.2.nth = (List.range n).map (b.nth ∘ Nat.succ) := by
        refine List.map_congr_left fun k _ => ?_
        simp only [nth, Function.comp_apply, Nat.succ_eq_add_one, take_succ]
      rw [take_succ, ih, htail, List.range_succ_eq_map, List.map_cons, List.map_map]
      rfl

theorem Drawn.take {count : Nat} (h : Drawn base max count b) (n : Nat) :
    Drawn base max (count + n) (b.take n).2 := by
  induction n generalizing count b with
  | zero => exact h
  | succ n ih =>
      rw [take_succ, ← Nat.add_assoc, Nat.add_right_comm]
      exact ih h.next

theorem nth_eq (h : make base max = .ok b) (k : Nat) : b.nth k = delayAt base max k := by
  obtain ⟨-, -, rfl⟩ := make_eq_ok_iff.mp h
  have hdrawn := (drawn_restart ⟨base, max, 0⟩).take k
  rw [Nat.zero_add] at hdrawn
  exact hdrawn.next_eq

/-- **The delays of a generator double up to the cap.** A delay below the cap is twice the one
before it. Any delay is at most twice the one before it, and the cap is not reached before the
product has reached it, except at one place: the first index that is out of the range of a shift,
for bounds whose quotient is larger than `2 ^ 32`. From there on every delay is the cap. -/
theorem delays_double (hmake : make base max = .ok b) {k : Nat} (hk : 1 ≤ k) :
    (b.nth k < max → (b.nth k).toNanos = 2 * (b.nth (k - 1)).toNanos) ∧
    ((b.nth k).toNanos ≤ 2 * (b.nth (k - 1)).toNanos ↔
      ¬ (k = 32 ∧ base.toNanos * 2 ^ k < max.toNanos)) ∧
    (k ≠ 32 → b.nth (k - 1) < max → b.nth k = max → max.toNanos ≤ base.toNanos * 2 ^ k) ∧
    (k = 32 → base.toNanos * 2 ^ k < max.toNanos →
      (b.nth (k - 1)).toNanos = base.toNanos * 2 ^ 31) ∧
    (32 ≤ k → b.nth k = max) := by
  obtain ⟨j, rfl⟩ : ∃ j, k = j + 1 := ⟨k - 1, by omega⟩
  rw [Nat.add_sub_cancel, nth_eq hmake, nth_eq hmake, Duration.lt_def, Duration.lt_def]
  have hdouble : base.toNanos * 2 ^ (j + 1) = 2 * (base.toNanos * 2 ^ j) := by
    rw [Nat.pow_succ, ← Nat.mul_assoc, Nat.mul_comm]
  have hproduct {i : Nat} (h : i < 32) :
      (delayAt base max i).toNanos = min (base.toNanos * 2 ^ i) max.toNanos := toNanos_delayAt h
  have hcap {i : Nat} (h : 32 ≤ i) : (delayAt base max i).toNanos = max.toNanos :=
    congrArg Duration.toNanos (delayAt_of_ge h)
  -- both delays are products, or only the first of them, or none
  rcases Nat.lt_trichotomy (j + 1) 32 with hbelow | hedge | habove
  · have hthis := hproduct hbelow
    have hlast := hproduct (Nat.lt_of_succ_lt hbelow)
    refine ⟨by omega, by omega, fun _ hlt hreached => ?_, by omega, by omega⟩
    have hnanos := congrArg Duration.toNanos hreached
    omega
  · -- the product is not formed any more, however small it is
    have hthis := hcap (Nat.le_of_eq hedge.symm)
    have hlast := hproduct (show j < 32 by omega)
    obtain rfl : j = 31 := by omega
    refine ⟨by omega, by omega, fun hne => absurd rfl hne, fun _ hlt => by omega,
      fun hge => delayAt_of_ge hge⟩
  · have hthis := hcap (Nat.le_of_lt habove)
    have hlast := hcap (Nat.le_of_lt_succ habove)
    exact ⟨by omega, by omega, by omega, by omega, fun hge => delayAt_of_ge hge⟩

/-- The fourth delay between a tenth of a second and one second is twice the third. -/
theorem delays_double_tenth :
    make (.ofMillis64 100) (.ofMillis64 1000) = .ok ⟨.ofMillis64 100, .ofMillis64 1000, 0⟩ ∧
    1 ≤ 3 ∧
    (nth ⟨.ofMillis64 100, .ofMillis64 1000, 0⟩ 3).toNanos =
      2 * (nth ⟨.ofMillis64 100, .ofMillis64 1000, 0⟩ 2).toNanos := by
  have hmake : make (.ofMillis64 100) (.ofMillis64 1000) =
      .ok ⟨.ofMillis64 100, .ofMillis64 1000, 0⟩ :=
    make_eq_ok_iff.mpr ⟨by decide, by decide, rfl⟩
  exact ⟨hmake, by decide, (delays_double hmake (k := 3) (by decide)).1 (by decide)⟩

/-- Between a nanosecond and five seconds the delay jumps to the cap: `2 ^ 31` nanoseconds are
followed by five seconds, though `2 ^ 32` nanoseconds are less. -/
theorem cap_before_product :
    ∃ b, make ⟨0, 1, by decide, by decide⟩ ⟨5, 0, by decide, by decide⟩ = .ok b ∧
      b.nth 31 < b.max ∧ b.nth 32 = b.max ∧ b.base.toNanos * 2 ^ 32 < b.max.toNanos ∧
      ¬ (b.nth 32).toNanos ≤ 2 * (b.nth 31).toNanos := by
  have hmake : make ⟨0, 1, by decide, by decide⟩ ⟨5, 0, by decide, by decide⟩ =
      .ok ⟨⟨0, 1, by decide, by decide⟩, ⟨5, 0, by decide, by decide⟩, 0⟩ :=
    make_eq_ok_iff.mpr ⟨by decide, by decide, rfl⟩
  refine ⟨_, hmake, ?_⟩
  rw [nth_eq hmake, nth_eq hmake, Duration.lt_def, toNanos_delayAt (by decide),
    delayAt_of_ge (by decide)]
  decide

end Backoff

end Dialer
