/-!
# Spans of time

A `Duration` is a whole number of seconds that fits 64 bits and a fraction in
nanoseconds. Both bounds are part of the type, so an operation that could leave
the range has to say what it does there:

* `Duration.ofMillis` — every millisecond count in range is a duration;
* `Duration.scale?` — the product with a number, if it still fits;
* `Duration.toNanos` — the one view that the order and all statements use.
-/

namespace Dialer

/-- A span of time: whole seconds and a fraction of a second in nanoseconds. -/
structure Duration where
  secs : Nat
  nanos : Nat
  secs_lt : secs < 1 <<< 64
  nanos_lt : nanos < 1_000_000_000
deriving DecidableEq

namespace Duration

/-- The length in nanoseconds. -/
def toNanos (d : Duration) : Nat :=
  d.secs * 1_000_000_000 + d.nanos

/-- The empty span. -/
def zero : Duration :=
  ⟨0, 0, by omega, by omega⟩

instance : Inhabited Duration := ⟨zero⟩

/-- The span of the given seconds and nanoseconds, if both are in range. -/
def make? (secs nanos : Nat) : Option Duration :=
  if h : secs < 1 <<< 64 ∧ nanos < 1_000_000_000 then some ⟨secs, nanos, h.1, h.2⟩ else none

/-- The span of a number of milliseconds. -/
def ofMillis (ms : Nat) (h : ms < 1000 * (1 <<< 64)) : Duration :=
  ⟨ms / 1000, ms % 1000 * 1_000_000, by omega, by omega⟩

/-- The span of a number of milliseconds that fits 64 bits. -/
def ofMillis64 (ms : UInt64) : Duration :=
  ofMillis ms.toNat (by have := ms.toNat_lt; omega)

/-- The span of a number of seconds that fits 32 bits. -/
def ofSecs (secs : UInt32) : Duration :=
  ⟨secs.toNat, 0, by have := secs.toNat_lt; omega, by omega⟩

/-- Whole milliseconds in the span. -/
def toMillis (d : Duration) : Nat :=
  d.secs * 1000 + d.nanos / 1_000_000

/-- Is the span empty? -/
def isZero (d : Duration) : Bool :=
  d.secs == 0 && d.nanos == 0

instance : LE Duration := ⟨fun a b => a.toNanos ≤ b.toNanos⟩
instance : LT Duration := ⟨fun a b => a.toNanos < b.toNanos⟩
instance (a b : Duration) : Decidable (a ≤ b) := inferInstanceAs (Decidable (a.toNanos ≤ b.toNanos))
instance (a b : Duration) : Decidable (a < b) := inferInstanceAs (Decidable (a.toNanos < b.toNanos))

/-- The span `k` times as long, if its seconds still fit. Nanoseconds beyond a
full second are carried over. -/
def scale? (d : Duration) (k : Nat) : Option Duration :=
  let fraction := d.nanos * k
  let secs := d.secs * k + fraction / 1_000_000_000
  if h : secs < 1 <<< 64 then
    some ⟨secs, fraction % 1_000_000_000, h, Nat.mod_lt _ (by omega)⟩
  else
    none

theorem le_def {a b : Duration} : a ≤ b ↔ a.toNanos ≤ b.toNanos := Iff.rfl

theorem lt_def {a b : Duration} : a < b ↔ a.toNanos < b.toNanos := Iff.rfl

/-- The view loses nothing. -/
theorem toNanos_inj {a b : Duration} : a.toNanos = b.toNanos ↔ a = b := by
  constructor
  · intro h
    obtain ⟨s, n, hs, hn⟩ := a
    obtain ⟨s2, n2, hs2, hn2⟩ := b
    simp only [toNanos] at h
    have hsecs : s = s2 := by omega
    have hnanos : n = n2 := by omega
    subst hsecs hnanos
    rfl
  · rintro rfl
    rfl

@[simp] theorem toNanos_zero : zero.toNanos = 0 := rfl

theorem isZero_iff {d : Duration} : d.isZero = true ↔ d.toNanos = 0 := by
  simp only [isZero, toNanos, Bool.and_eq_true, beq_iff_eq]
  omega

theorem toNanos_ofMillis (ms : Nat) (h : ms < 1000 * (1 <<< 64)) :
    (ofMillis ms h).toNanos = ms * 1_000_000 := by
  simp only [ofMillis, toNanos]
  omega

/-- Scaling is multiplication where the product is in range, and nothing elsewhere. -/
theorem scale?_eq_some {d e : Duration} {k : Nat} :
    d.scale? k = some e ↔ e.toNanos = d.toNanos * k := by
  have hsplit : d.nanos * k =
      d.nanos * k / 1_000_000_000 * 1_000_000_000 + d.nanos * k % 1_000_000_000 := by omega
  have htotal : d.toNanos * k =
      (d.secs * k + d.nanos * k / 1_000_000_000) * 1_000_000_000 +
        d.nanos * k % 1_000_000_000 := by
    simp only [toNanos, Nat.add_mul]
    have : d.secs * 1_000_000_000 * k = d.secs * k * 1_000_000_000 := by
      rw [Nat.mul_assoc, Nat.mul_comm (1_000_000_000) k, ← Nat.mul_assoc]
    omega
  simp only [scale?]
  split
  · rename_i h
    rw [Option.some.injEq, ← toNanos_inj, htotal]
    simp only [toNanos]
    exact ⟨fun hx => hx.symm, fun hx => hx.symm⟩
  · rename_i h
    simp only [reduceCtorEq, false_iff]
    intro he
    rw [htotal] at he
    have := e.secs_lt
    have := e.nanos_lt
    have := Nat.mod_lt (d.nanos * k) (y := 1_000_000_000) (by omega)
    simp only [toNanos] at he
    omega

end Duration

end Dialer
