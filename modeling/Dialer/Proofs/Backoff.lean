import Dialer.Backoff

/-!
# The delays of a backoff

In nanoseconds a delay is `base * 2 ^ k`, cut at the cap (`toNanos_delay`), so a delay that has
reached the cap is not left again. A generator counts no further from there, and still hands out
the delays one after another (`Drawn.delay_eq`).
-/

namespace Dialer

namespace Duration

/-- A product is out of range only where no duration is as long. -/
theorem lt_of_scale?_eq_none {d : Duration} {k : Nat} (h : d.scale? k = none) (e : Duration) :
    e.toNanos < d.toNanos * k := by
  have hsecs : 1 <<< 64 ≤ d.secs * k + d.nanos * k / 1_000_000_000 := by
    simp only [scale?] at h
    split at h
    · cases h
    · omega
  have hsplit : d.toNanos * k = d.secs * k * 1_000_000_000 + d.nanos * k := by
    simp only [toNanos, Nat.add_mul, Nat.mul_right_comm]
  have hlt := e.secs_lt
  have hnanos := e.nanos_lt
  simp only [toNanos] at hsplit ⊢
  omega

theorem le_antisymm {a b : Duration} (hab : a ≤ b) (hba : b ≤ a) : a = b :=
  toNanos_inj.mp (Nat.le_antisymm hab hba)

end Duration

namespace Backoff

variable {base max : Duration}

theorem delay_of_ge {index : UInt32} (h : 32 ≤ index.toNat) : delay index base max = max := by
  have hnot : ¬ index < 32 := by
    rw [UInt32.lt_iff_toNat_lt]
    exact Nat.not_lt.mpr h
  exact if_neg hnot

/-- A delay below the cap is within the width of a word. -/
theorem toNat_lt_of_delay_lt {index : UInt32} (h : delay index base max < max) :
    index.toNat < 32 := by
  refine Nat.lt_of_not_le fun hge => ?_
  rw [delay_of_ge hge] at h
  exact Nat.lt_irrefl _ h

theorem toNanos_delay {index : UInt32} (h : index.toNat < 32) :
    (delay index base max).toNanos = min (base.toNanos * (1 <<< index.toNat)) max.toNanos := by
  have hlt : index < 32 := UInt32.lt_iff_toNat_lt.mpr h
  unfold delay
  rw [if_pos hlt]
  cases hscale : base.scale? (1 <<< index.toNat) with
  | none =>
      have hover := Duration.lt_of_scale?_eq_none hscale max
      exact (Nat.min_eq_right (Nat.le_of_lt hover)).symm
  | some d =>
      have hd := Duration.scale?_eq_some.mp hscale
      dsimp only
      by_cases hle : d ≤ max
      · rw [if_pos hle, ← hd]
        exact (Nat.min_eq_left hle).symm
      · rw [if_neg hle, ← hd]
        exact (Nat.min_eq_right (Nat.le_of_not_le hle)).symm

theorem delay_le (index : UInt32) : delay index base max ≤ max := by
  by_cases h : index.toNat < 32
  · rw [Duration.le_def, toNanos_delay h]
    exact Nat.min_le_right _ _
  · rw [delay_of_ge (Nat.le_of_not_lt h)]
    exact Nat.le_refl _

/-- A delay that has reached the cap is the cap from then on. -/
theorem delay_eq_max {i j : UInt32} (hij : i.toNat ≤ j.toNat) (h : max ≤ delay i base max) :
    delay j base max = max := by
  by_cases hj : j.toNat < 32
  · refine Duration.le_antisymm (delay_le j) ?_
    rw [Duration.le_def, toNanos_delay (Nat.lt_of_le_of_lt hij hj), Nat.one_shiftLeft] at h
    rw [Duration.le_def, toNanos_delay hj, Nat.one_shiftLeft]
    have hpow := Nat.mul_le_mul_left base.toNanos (Nat.pow_le_pow_right Nat.two_pos hij)
    omega
  · exact delay_of_ge (Nat.le_of_not_lt hj)

/-! ## Drawing -/

/-- A generator that hands out a delay below the cap counts it. -/
theorem next_index_of_lt {b : Backoff} (h : b.next.1 < b.max) :
    b.index.toNat < 32 ∧ b.next.2.index.toNat = b.index.toNat + 1 := by
  have hsmall : b.index.toNat < 32 := toNat_lt_of_delay_lt h
  have hnext : b.next.2 = { b with index := b.index + 1 } := if_pos h
  refine ⟨hsmall, ?_⟩
  rw [hnext, UInt32.toNat_add, UInt32.toNat_one]
  omega

theorem next_base (b : Backoff) : b.next.2.base = b.base := by
  unfold next
  dsimp only
  split <;> rfl

theorem next_max (b : Backoff) : b.next.2.max = b.max := by
  unfold next
  dsimp only
  split <;> rfl

/-- A generator that has handed out a number of delays: it counts them, or has reached the cap. -/
structure Drawn (base max : Duration) (count : Nat) (b : Backoff) : Prop where
  base_eq : b.base = base
  max_eq : b.max = max
  index : b.index.toNat = count ∨ b.index.toNat ≤ count ∧ max ≤ delay b.index base max

theorem drawn_restart (b : Backoff) : Drawn b.base b.max 0 b.restart :=
  ⟨rfl, rfl, .inl rfl⟩

/-- The next delay of a generator is the next delay there is. -/
theorem Drawn.delay_eq {count : Nat} {b : Backoff} (h : Drawn base max count b) {index : UInt32}
    (hindex : index.toNat = count) : b.next.1 = delay index base max := by
  show delay b.index b.base b.max = delay index base max
  rw [h.base_eq, h.max_eq]
  rcases h.index with hsame | ⟨hle, hcap⟩
  · rw [UInt32.toNat_inj.mp (hsame.trans hindex.symm)]
  · rw [delay_eq_max (Nat.le_refl _) hcap, delay_eq_max (hindex ▸ hle) hcap]

theorem Drawn.next {count : Nat} {b : Backoff} (h : Drawn base max count b) :
    Drawn base max (count + 1) b.next.2 := by
  obtain ⟨hbase, hmax, hindex⟩ := h
  by_cases hlt : b.next.1 < b.max
  · obtain ⟨-, hnext⟩ := next_index_of_lt hlt
    refine ⟨(next_base b).trans hbase, (next_max b).trans hmax, .inl ?_⟩
    rcases hindex with hsame | ⟨_, hcap⟩
    · rw [hnext, hsame]
    · rw [← hbase, ← hmax] at hcap
      exact absurd hcap (Nat.not_le.mpr hlt)
  · have hnext : b.next.2 = b := if_neg hlt
    have hcap : max ≤ delay b.index base max := by
      rw [← hbase, ← hmax]
      exact Nat.le_of_not_lt hlt
    rw [hnext]
    refine ⟨hbase, hmax, .inr ⟨?_, hcap⟩⟩
    rcases hindex with hsame | ⟨hle, _⟩ <;> omega

/-! ## Indices of any size -/

/-- The delay with an index of any size: from the width of a word on it is the cap. -/
def delayAt (base max : Duration) (k : Nat) : Duration :=
  if k < 32 then delay (.ofNat k) base max else max

theorem delayAt_eq {k : Nat} {index : UInt32} (h : index.toNat = k) :
    delayAt base max k = delay index base max := by
  unfold delayAt
  by_cases hk : k < 32
  · rw [if_pos hk, ← h, UInt32.ofNat_toNat]
  · rw [if_neg hk, delay_of_ge (by omega)]

theorem delayAt_le (k : Nat) : delayAt base max k ≤ max := by
  unfold delayAt
  split
  · exact delay_le _
  · exact Nat.le_refl _

theorem Drawn.next_eq {count : Nat} {b : Backoff} (h : Drawn base max count b) :
    b.next.1 = delayAt base max count := by
  by_cases hcount : count < 2 ^ 32
  · have hindex : (UInt32.ofNat count).toNat = count := UInt32.toNat_ofNat_of_lt' hcount
    rw [h.delay_eq hindex, delayAt_eq hindex]
  · -- no index is as large, so the generator has reached the cap
    have hlt := b.index.toNat_lt
    rcases h.index with hsame | ⟨-, hcap⟩
    · omega
    · show delay b.index b.base b.max = delayAt base max count
      rw [h.base_eq, h.max_eq, delay_eq_max (Nat.le_refl _) hcap, delayAt, if_neg (by omega)]

end Backoff

end Dialer
