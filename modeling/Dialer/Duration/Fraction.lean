import Dialer.Duration

/-!
# Fractions of a duration

Lengthening a duration by a fraction of itself that is given in floating point. What is
added is rounded to the nearest nanosecond. The result is never shorter than the
duration, and the longest duration stands in for one out of range.
-/

namespace Dialer.Duration

/-- The longest duration. -/
def longest : Duration :=
  ⟨(1 <<< 64) - 1, 999_999_999, by omega, by omega⟩

/-- The duration of a number of nanoseconds, if it is in range. -/
def ofNanos? (n : Nat) : Option Duration :=
  if h : n / 1_000_000_000 < 1 <<< 64 then
    some ⟨n / 1_000_000_000, n % 1_000_000_000, h, Nat.mod_lt _ (by omega)⟩
  else
    none

/-- The duration of a number of nanoseconds; the longest one if that is out of range. -/
def ofNanosClamped (n : Nat) : Duration :=
  if h : n / 1_000_000_000 < 1 <<< 64 then
    ⟨n / 1_000_000_000, n % 1_000_000_000, h, Nat.mod_lt _ (by omega)⟩
  else
    longest

/-- The length in seconds, rounded to floating point. -/
def toSeconds (d : Duration) : Float :=
  Float.ofNat d.secs + Float.ofNat d.nanos / 1e9

/-- The whole number nearest to `n / d`; of two that are equally near, the even one. -/
def nearestQuotient (n d : Nat) : Nat :=
  let q := n / d
  let r := n % d
  if d < 2 * r ∨ (2 * r = d ∧ q % 2 = 1) then q + 1 else q

/-- The number of nanoseconds nearest to a finite, non-negative number of seconds. Such a
number is `m * 2 ^ e / 2 ^ 1075`, with `m` and `e` in its bits. -/
def nanosOfSeconds (x : Float) : Nat :=
  let bits := x.toBits.toNat
  let e := (bits >>> 52) % (1 <<< 11)
  let fraction := bits % (1 <<< 52)
  let m := if e = 0 then 2 * fraction else fraction + (1 <<< 52)
  nearestQuotient ((m <<< e) * 1_000_000_000) (1 <<< 1075)

/-- The duration lengthened by a fraction of itself, if that is in range. -/
def lengthened? (d : Duration) (part : Float) : Option Duration :=
  ofNanos? (d.toNanos + nanosOfSeconds (d.toSeconds * part))

/-- The duration lengthened by a fraction of itself. -/
def lengthened (d : Duration) (part : Float) : Duration :=
  ofNanosClamped (d.toNanos + nanosOfSeconds (d.toSeconds * part))

theorem ofNanos?_getD (n : Nat) : (ofNanos? n).getD longest = ofNanosClamped n := by
  unfold ofNanos? ofNanosClamped
  split <;> rfl

/-- Lengthening never shortens. -/
theorem le_lengthened (d : Duration) (part : Float) : d ≤ d.lengthened part := by
  have hs := d.secs_lt
  have hn := d.nanos_lt
  simp only [le_def, lengthened, ofNanosClamped]
  split
  · simp only [toNanos]
    omega
  · simp only [toNanos, longest]
    omega

end Dialer.Duration
