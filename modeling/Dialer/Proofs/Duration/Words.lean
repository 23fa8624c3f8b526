import Dialer.Duration

/-!
# Durations in machine words

A duration is kept in two words: 64 bits for its seconds and 32 for its nanoseconds. Scaling it
multiplies both, the nanoseconds in 64 bits, and carries their full seconds over. An operation on
words can leave their range. Either it is asked whether it did (`product?`, `sum?`), or it is relied
upon (`relied`), and then a result out of range is a fault.

Scaling faults nowhere: it is `Duration.scale?` in words (`Words.scale?_words`). Two pairs compare
by their seconds and then by their nanoseconds, which is the order of the lengths
(`Words.le_words_iff`).
-/

namespace Dialer

/-- A span of time in words. -/
structure Words where
  secs : UInt64
  nanos : UInt32

/-- A duration in words. -/
def Duration.words (d : Duration) : Words :=
  ⟨.ofNat d.secs, .ofNat d.nanos⟩

namespace Words

/-! ## Operations on words -/

/-- An operation that was relied upon has left the range of its words. -/
inductive Fault where
  | outOfRange

/-- The result of an operation that is relied upon to have one. -/
def relied {α : Type} : Option α → Except Fault α
  | some a => .ok a
  | none => .error .outOfRange

/-- The word of a number, if there is one. -/
def word? (n : Nat) : Option UInt64 :=
  if n < UInt64.size then some (.ofNat n) else none

/-- The product of two words, if it is one. -/
def product? (a b : UInt64) : Option UInt64 :=
  word? (a.toNat * b.toNat)

/-- The sum of two words, if it is one. -/
def sum? (a b : UInt64) : Option UInt64 :=
  word? (a.toNat + b.toNat)

theorem word?_eq_some {n : Nat} {w : UInt64} : word? n = some w ↔ w.toNat = n := by
  unfold word?
  split
  · rename_i h
    rw [Option.some.injEq, ← UInt64.toNat_inj, UInt64.toNat_ofNat_of_lt' h, eq_comm]
  · have hw : w.toNat < UInt64.size := w.toNat_lt
    simp only [reduceCtorEq, false_iff]
    omega

theorem product?_eq_some {a b c : UInt64} :
    product? a b = some c ↔ c.toNat = a.toNat * b.toNat :=
  word?_eq_some

theorem sum?_eq_some {a b c : UInt64} : sum? a b = some c ↔ c.toNat = a.toNat + b.toNat :=
  word?_eq_some

/-! ## Pairs of words -/

/-- The length in nanoseconds. -/
def toNanos (w : Words) : Nat :=
  w.secs.toNat * 1_000_000_000 + w.nanos.toNat

/-- The pair of the given words; full seconds among the nanoseconds are carried over. -/
def make (secs : UInt64) (nanos : UInt32) : Except Fault Words :=
  if nanos < 1_000_000_000 then .ok ⟨secs, nanos⟩
  else do
    let secs ← relied (sum? secs (nanos / 1_000_000_000).toUInt64)
    return ⟨secs, nanos % 1_000_000_000⟩

/-- The span `k` times as long, if its seconds still fit. -/
def scale? (w : Words) (k : UInt32) : Except Fault (Option Words) := do
  let fraction ← relied (product? w.nanos.toUInt64 k.toUInt64)
  let carry := fraction / 1_000_000_000
  let nanos := (fraction % 1_000_000_000).toUInt32
  match (product? w.secs k.toUInt64).bind (sum? · carry) with
  | some secs => some <$> make secs nanos
  | none => return none

/-- Does a span not come after another? The seconds decide, and the nanoseconds if they agree. -/
def le (a b : Words) : Bool :=
  a.secs < b.secs || (a.secs == b.secs && a.nanos ≤ b.nanos)

theorem secs_words (d : Duration) : d.words.secs.toNat = d.secs :=
  UInt64.toNat_ofNat_of_lt' d.secs_lt

theorem nanos_words (d : Duration) : d.words.nanos.toNat = d.nanos := by
  have hnanos := d.nanos_lt
  exact UInt32.toNat_ofNat_of_lt' (show d.nanos < 2 ^ 32 by omega)

theorem toNanos_words (d : Duration) : d.words.toNanos = d.toNanos := by
  rw [toNanos, secs_words, nanos_words, Duration.toNanos]

theorem words_eq_iff {d : Duration} {w : Words} :
    d.words = w ↔ d.secs = w.secs.toNat ∧ d.nanos = w.nanos.toNat := by
  refine ⟨fun h => ?_, fun ⟨hsecs, hnanos⟩ => ?_⟩
  · rw [← h, secs_words, nanos_words]
    exact ⟨rfl, rfl⟩
  · rw [Duration.words, hsecs, hnanos, UInt64.ofNat_toNat, UInt32.ofNat_toNat]

theorem make_of_lt {secs : UInt64} {nanos : UInt32} (h : nanos.toNat < 1_000_000_000) :
    make secs nanos = .ok ⟨secs, nanos⟩ :=
  if_pos (UInt32.lt_iff_toNat_lt.mpr h)

theorem le_words_iff (a b : Duration) : a.words.le b.words = true ↔ a ≤ b := by
  have ha := a.nanos_lt
  have hb := b.nanos_lt
  simp only [le, Bool.or_eq_true, Bool.and_eq_true, decide_eq_true_eq, beq_iff_eq,
    UInt64.lt_iff_toNat_lt, ← UInt64.toNat_inj, UInt32.le_iff_toNat_le, secs_words, nanos_words,
    Duration.le_def, Duration.toNanos]
  omega

/-- The nanoseconds stay far within 64 bits, and what is left of them behind the carry within 32. -/
theorem fraction_words (d : Duration) (k : UInt32) :
    ∃ fraction, product? d.words.nanos.toUInt64 k.toUInt64 = some fraction ∧
      fraction.toNat = d.nanos * k.toNat ∧
      (fraction % 1_000_000_000).toUInt32.toNat = d.nanos * k.toNat % 1_000_000_000 := by
  have hnanos := d.nanos_lt
  have hk := k.toNat_lt
  have hproduct : d.nanos * k.toNat < 1_000_000_000 * 2 ^ 32 := Nat.mul_lt_mul'' hnanos hk
  have hfraction : (UInt64.ofNat (d.nanos * k.toNat)).toNat = d.nanos * k.toNat :=
    UInt64.toNat_ofNat_of_lt' (show d.nanos * k.toNat < 2 ^ 64 by omega)
  refine ⟨_, product?_eq_some.mpr ?_, hfraction, ?_⟩
  · rw [hfraction, UInt32.toNat_toUInt64, UInt32.toNat_toUInt64, nanos_words]
  · have hmod := Nat.mod_lt (d.nanos * k.toNat) (y := 1_000_000_000) (by omega)
    rw [UInt64.toNat_toUInt32, UInt64.toNat_mod, hfraction]
    exact Nat.mod_eq_of_lt (show d.nanos * k.toNat % 1_000_000_000 < 2 ^ 32 by omega)

/-- The seconds fit where their product does and the carry fits on top of it. -/
theorem seconds_words (d : Duration) (k : UInt32) {carry secs : UInt64} :
    (product? d.words.secs k.toUInt64).bind (sum? · carry) = some secs ↔
      secs.toNat = d.secs * k.toNat + carry.toNat := by
  simp only [Option.bind_eq_some_iff, product?_eq_some, sum?_eq_some, UInt32.toNat_toUInt64,
    secs_words]
  refine ⟨fun ⟨product, hproduct, hsum⟩ => hproduct ▸ hsum, fun hsum => ?_⟩
  have hsecs := secs.toNat_lt
  have hproduct : (UInt64.ofNat (d.secs * k.toNat)).toNat = d.secs * k.toNat :=
    UInt64.toNat_ofNat_of_lt' (show d.secs * k.toNat < 2 ^ 64 by omega)
  exact ⟨_, hproduct, hproduct.symm ▸ hsum⟩

/-- **Scaling in words is scaling, and no operation in it faults.** -/
theorem scale?_words (d : Duration) (k : UInt32) :
    d.words.scale? k = .ok ((d.scale? k.toNat).map Duration.words) := by
  obtain ⟨fraction, hproduct, hfraction, hrest⟩ := fraction_words d k
  have hcarry : (fraction / 1_000_000_000).toNat = d.nanos * k.toNat / 1_000_000_000 := by
    rw [UInt64.toNat_div, hfraction]
    rfl
  have hmod := Nat.mod_lt (d.nanos * k.toNat) (y := 1_000_000_000) (by omega)
  have hscale : d.words.scale? k =
      match (product? d.words.secs k.toUInt64).bind (sum? · (fraction / 1_000_000_000)) with
      | some secs => some <$> make secs (fraction % 1_000_000_000).toUInt32
      | none => return none := by
    unfold scale?
    rw [hproduct]
    rfl
  rw [hscale]
  cases hfit : (product? d.words.secs k.toUInt64).bind (sum? · (fraction / 1_000_000_000)) with
  | some secs =>
      have hsecs := hcarry ▸ (seconds_words d k).mp hfit
      obtain ⟨e, hd, he⟩ : ∃ e, d.scale? k.toNat = some e ∧
          e.words = ⟨secs, (fraction % 1_000_000_000).toUInt32⟩ :=
        ⟨_, dif_pos (hsecs ▸ secs.toNat_lt), words_eq_iff.mpr ⟨hsecs.symm, hrest.symm⟩⟩
      dsimp only
      rw [make_of_lt (hrest ▸ hmod), hd, Option.map_some, he]
      rfl
  | none =>
      have hd : d.scale? k.toNat = none := by
        refine dif_neg fun hlt => ?_
        have hfits := (seconds_words d k).mpr (hcarry.symm ▸ UInt64.toNat_ofNat_of_lt' hlt)
        exact absurd (hfit.symm.trans hfits) (by simp)
      rw [hd]
      rfl

end Words

end Dialer
