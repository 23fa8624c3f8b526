import Dialer.Proofs.Backoff
import Dialer.Proofs.Duration.Words
import Mathlib.Algebra.Ring.Nat

/-!
# The exact value of a delay

A delay is computed in machine words: a shift that is refused from the width of a word on, a product
that may be out of range, and a comparison of pairs with the cap (`Words.delay`). It never faults,
and comes to the same as `Backoff.delay`. In whole nanoseconds that is the product with the power of
two or the cap, whichever is less, and the cap where the shift is refused (`delay_exact`).
-/

namespace Dialer

namespace Words

/-- One shifted by a number of places, if a word has as many. -/
def shifted? (places : UInt32) : Option UInt32 :=
  if places < 32 then some (1 <<< places) else none

/-- The delay with a given index. -/
def delay (index : UInt32) (base max : Words) : Except Fault Words :=
  match shifted? index with
  | some factor => do
    match ← base.scale? factor with
    | some d => return if d.le max then d else max
    | none => return max
  | none => return max

theorem shifted?_of_lt {places : UInt32} (h : places < 32) :
    ∃ factor, shifted? places = some factor ∧ factor.toNat = 1 <<< places.toNat := by
  refine ⟨1 <<< places, if_pos h, ?_⟩
  have hplaces : places.toNat < 32 := UInt32.lt_iff_toNat_lt.mp h
  have hpower : 2 ^ places.toNat < 2 ^ 32 := Nat.pow_lt_pow_right (by decide) hplaces
  rw [UInt32.toNat_shiftLeft, UInt32.toNat_one, Nat.mod_eq_of_lt hplaces, Nat.one_shiftLeft]
  exact Nat.mod_eq_of_lt hpower

/-- **The delay in words is the delay, and no operation in it faults.** -/
theorem delay_words (index : UInt32) (base max : Duration) :
    delay index base.words max.words = .ok (Backoff.delay index base max).words := by
  unfold delay Backoff.delay
  by_cases hindex : index < 32
  · obtain ⟨factor, hshift, hfactor⟩ := shifted?_of_lt hindex
    rw [hshift, if_pos hindex, ← hfactor]
    dsimp only
    rw [scale?_words]
    cases base.scale? factor.toNat with
    | none => rfl
    | some d =>
        show Except.ok (if d.words.le max.words = true then d.words else max.words) = _
        simp only [le_words_iff]
        split <;> rfl
  · rw [shifted?, if_neg hindex, if_neg hindex]
    rfl

end Words

namespace Backoff

/-- **A delay is the product or the cap, to the nanosecond.** For every index that a word holds and
any two durations, be they empty or in the wrong order, the delay is the less of `base * 2 ^ index`
and the cap, and the cap from index 32 on. In words no operation on the way to it is out of range,
and its nanoseconds are less than a second. -/
theorem delay_exact (index : UInt32) (base max : Duration) :
    (index.toNat < 32 →
      (delay index base max).toNanos = min (base.toNanos * 2 ^ index.toNat) max.toNanos) ∧
    (32 ≤ index.toNat → (delay index base max).toNanos = max.toNanos) ∧
    ∃ w, Words.delay index base.words max.words = .ok w ∧
      w.nanos.toNat < 1_000_000_000 ∧ w.toNanos = (delay index base max).toNanos := by
  refine ⟨fun hindex => ?_, fun hindex => ?_,
    ⟨_, Words.delay_words index base max, ?_, Words.toNanos_words _⟩⟩
  · rw [toNanos_delay hindex, Nat.one_shiftLeft]
  · rw [delay_of_ge hindex]
  · rw [Words.nanos_words]
    exact Duration.nanos_lt _

end Backoff

end Dialer
