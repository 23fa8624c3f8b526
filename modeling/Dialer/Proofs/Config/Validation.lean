import Dialer.AddressCache
import Dialer.Breaker
import Dialer.Config.Validation
import Dialer.Retry

/-!
# What validation vouches for

A configuration is read a second time where it is used: its milliseconds are made into durations,
which are added to instants, and the delays of retries make a backoff, which has bounds of its own.
Validation vouches for all of this:

* the durations derived from any configuration are in range, and so are the instants they lead to
  (`derived_in_reach`), also as the ends of what a breaker begins (`endFits_ofConfig`) and as the
  first clear of the cache (`start?_interval`);
* the two delays are faulted exactly if no backoff can be made of them (`delays_faulted_iff`), so an
  accepted configuration has a retry policy (`policy_of_valid`);
* an accepted configuration has the cache cleared in a rhythm (`interval_pos_of_valid`).
-/

namespace Dialer

/-! ## Durations -/

namespace Duration

theorem toNanos_ofMillis64 (ms : UInt64) : (ofMillis64 ms).toNanos = ms.toNat * 1_000_000 :=
  toNanos_ofMillis _ _

theorem isZero_ofMillis64 {ms : UInt64} : (ofMillis64 ms).isZero = true ↔ ms = 0 := by
  rw [isZero_iff, toNanos_ofMillis64, ← UInt64.toNat_inj, UInt64.toNat_zero]
  omega

theorem ofMillis64_lt {a b : UInt64} : ofMillis64 a < ofMillis64 b ↔ a < b := by
  rw [lt_def, toNanos_ofMillis64, toNanos_ofMillis64, UInt64.lt_iff_toNat_lt]
  omega

end Duration

namespace Config

/-- The durations derived from a configuration. -/
def derived (c : Config) : List Duration :=
  [c.resolver.cacheClearInterval, c.resolver.lookupTimeout, c.breaker.openDuration,
    c.breaker.interval, c.retries.baseDelay, c.retries.maxDelay, c.timeouts.callTimeout]

/-- A span of which every instant is in reach: no deadline that far away is lost. -/
def InReach (d : Duration) : Prop :=
  ∀ now, Clock.deadline? now d = some (Clock.timer now d)

theorem inReach_ofMillis {ms : Nat} (h : ms < 1000 * (1 <<< 64)) (hlow : ms < 1000 * (1 <<< 63)) :
    InReach (.ofMillis ms h) := by
  intro now
  have hsecs : (Duration.ofMillis ms h).secs < 1 <<< 63 := by
    show ms / 1000 < 1 <<< 63
    omega
  exact if_pos hsecs

theorem inReach_ofMillis64 (ms : UInt64) : InReach (.ofMillis64 ms) := by
  have hlt := ms.toNat_lt
  exact inReach_ofMillis _ (by omega)

/-- A window that is not configured is twice the open period, which is in range. -/
theorem interval_eq_scale {c : BreakerConfig} (h : c.intervalMs = 0) :
    c.openDuration.scale? 2 = some c.interval := by
  rw [Duration.scale?_eq_some]
  unfold BreakerConfig.interval BreakerConfig.openDuration
  rw [if_pos h, Duration.toNanos_ofMillis, Duration.toNanos_ofMillis64]
  omega

theorem interval_inReach (c : BreakerConfig) : InReach c.interval := by
  have hlt := c.openDurationMs.toNat_lt
  unfold BreakerConfig.interval
  split
  · exact inReach_ofMillis _ (by omega)
  · exact inReach_ofMillis64 _

theorem derived_in_reach (c : Config) : ∀ d ∈ c.derived, InReach d := by
  unfold derived
  simp only [List.forall_mem_cons]
  exact ⟨inReach_ofMillis64 _, inReach_ofMillis64 _, inReach_ofMillis64 _, interval_inReach _,
    inReach_ofMillis64 _, inReach_ofMillis64 _, inReach_ofMillis64 _, by simp⟩

/-- Less than `2 ^ 65` milliseconds lead to an instant, unless the clock is as close to the end of
its range. -/
theorem instant?_eq {now : Nat} (hnow : now + (1 <<< 65) * 1_000_000 ≤ Clock.horizon) {d : Duration}
    (hd : d.toNanos < (1 <<< 65) * 1_000_000) : Clock.instant? now d = some (Clock.after now d) := by
  refine Clock.instant?_eq_some.mpr ⟨rfl, ?_⟩
  unfold Clock.after
  omega

theorem instant?_ofMillis64 {now : Nat} (hnow : now + (1 <<< 65) * 1_000_000 ≤ Clock.horizon)
    (ms : UInt64) :
    Clock.instant? now (.ofMillis64 ms) = some (Clock.after now (.ofMillis64 ms)) := by
  have hlt := ms.toNat_lt
  refine instant?_eq hnow ?_
  rw [Duration.toNanos_ofMillis64]
  omega

/-- So the cache of a new connector can be cleared in a rhythm. -/
theorem start?_interval {c : ResolverConfig} (hpos : 0 < c.cacheClearInterval.toNanos) :
    Rhythm.start? c.cacheClearInterval 0 =
      some ⟨c.cacheClearInterval, c.cacheClearInterval.toNanos, hpos⟩ := by
  have hfirst : Clock.instant? 0 c.cacheClearInterval = some c.cacheClearInterval.toNanos := by
    rw [← Nat.zero_add c.cacheClearInterval.toNanos]
    exact instant?_ofMillis64 (by decide) c.cacheClearIntervalMs
  unfold Rhythm.start?
  rw [dif_pos hpos, hfirst, Option.map_some]

/-- What a breaker begins that a configuration asks for has an end that fits, unless the clock is
within `2 ^ 65` milliseconds of the end of its range. -/
theorem endFits_ofConfig (name : String) (c : BreakerConfig) (state : CircuitState) {now : Nat}
    (hnow : now + (1 <<< 65) * 1_000_000 ≤ Clock.horizon) :
    Breaker.endFits (.ofConfig name c) state now = true := by
  cases state with
  | halfOpen => rfl
  | opened => exact congrArg Option.isSome (instant?_ofMillis64 hnow c.openDurationMs)
  | closed =>
      have hfits (hd : c.interval.toNanos < (1 <<< 65) * 1_000_000) :
          (Clock.instant? now c.interval).isSome = true :=
        congrArg Option.isSome (instant?_eq hnow hd)
      have hopen := c.openDurationMs.toNat_lt
      refine Bool.or_eq_true_iff.mpr (.inr (hfits ?_))
      unfold BreakerConfig.interval
      have hinterval := c.intervalMs.toNat_lt
      split
      · rw [Duration.toNanos_ofMillis]
        omega
      · rw [Duration.toNanos_ofMillis64]
        omega

/-- So it can be made. -/
theorem make?_ofConfig (name : String) (c : BreakerConfig) {now : Nat}
    (hnow : now + (1 <<< 65) * 1_000_000 ≤ Clock.horizon) :
    Breaker.make? (.ofConfig name c) now = .returned (.make (.ofConfig name c) now) :=
  if_pos (endFits_ofConfig name c .closed hnow)

/-! ## Problems -/

theorem mem_require {condition : Bool} {field : String} {fault : Fault} {e : ValidationError} :
    e ∈ require condition field fault ↔ condition = false ∧ e = ⟨field, fault⟩ := by
  cases condition <;> simp [require]

/-- The fields of the delays of retries. -/
def delayFields : List String :=
  ["retries.base_delay_ms", "retries.max_delay_ms"]

theorem not_delay_of_resolver {c : ResolverConfig} {e : ValidationError}
    (h : e ∈ resolverErrors c) : e.field ∉ delayFields := by
  simp only [resolverErrors, List.mem_append, mem_require] at h
  rcases h with ((⟨-, rfl⟩ | ⟨-, rfl⟩) | ⟨-, rfl⟩) | ⟨-, rfl⟩ <;> simp [delayFields]

theorem not_delay_of_breaker {c : BreakerConfig} {e : ValidationError} (h : e ∈ breakerErrors c) :
    e.field ∉ delayFields := by
  simp only [breakerErrors, List.mem_append, mem_require] at h
  rcases h with (⟨-, rfl⟩ | ⟨-, rfl⟩) | ⟨-, rfl⟩ <;> simp [delayFields]

theorem not_delay_of_observability {c : ObservabilityConfig} {e : ValidationError}
    (h : e ∈ observabilityErrors c) : e.field ∉ delayFields := by
  obtain ⟨-, rfl⟩ := mem_require.mp h
  simp [delayFields]

/-- The delays are faulted for what is wrong with them, and for nothing else. -/
theorem delay_faulted_iff {c : RetryConfig} :
    (∃ e ∈ retryErrors c, e.field ∈ delayFields) ↔
      c.baseDelayMs = 0 ∨ c.maxDelayMs = 0 ∨ c.maxDelayMs < c.baseDelayMs := by
  simp only [retryErrors, List.mem_append, mem_require, bne_eq_false_iff_eq,
    decide_eq_false_iff_not, UInt64.not_le]
  constructor
  · rintro ⟨e, ((⟨hbase, -⟩ | ⟨hmax, -⟩) | ⟨hless, -⟩) | ⟨-, rfl⟩, hfield⟩
    · exact .inl hbase
    · exact .inr (.inl hmax)
    · exact .inr (.inr hless)
    · exact absurd hfield (by simp [delayFields])
  · rintro (hbase | hmax | hless)
    · exact ⟨_, .inl (.inl (.inl ⟨hbase, rfl⟩)), by simp [delayFields]⟩
    · exact ⟨_, .inl (.inl (.inr ⟨hmax, rfl⟩)), by simp [delayFields]⟩
    · exact ⟨_, .inl (.inr ⟨hless, rfl⟩), by simp [delayFields]⟩

/-- The delays make no backoff for the same reasons. -/
theorem make_rejects_iff {c : RetryConfig} :
    (∃ error, Backoff.make c.baseDelay c.maxDelay = .error error) ↔
      c.baseDelayMs = 0 ∨ c.maxDelayMs = 0 ∨ c.maxDelayMs < c.baseDelayMs := by
  simp only [Backoff.make, RetryConfig.baseDelay, RetryConfig.maxDelay,
    Duration.isZero_ofMillis64, Duration.ofMillis64_lt]
  by_cases hbase : c.baseDelayMs = 0
  · simp [hbase]
  · by_cases hmax : c.maxDelayMs = 0
    · simp [hbase, hmax]
    · by_cases hless : c.maxDelayMs < c.baseDelayMs <;> simp [hbase, hmax, hless]

/-- Validation faults one of the delays exactly if they make no backoff. -/
theorem delays_faulted_iff (c : Config) :
    (∃ e ∈ c.errors, e.field ∈ delayFields) ↔
      ∃ error, Backoff.make c.retries.baseDelay c.retries.maxDelay = .error error := by
  rw [make_rejects_iff, ← delay_faulted_iff]
  constructor
  · rintro ⟨e, he, hfield⟩
    simp only [errors, List.mem_append] at he
    rcases he with ((hresolver | hbreaker) | hretries) | hobservability
    · exact absurd hfield (not_delay_of_resolver hresolver)
    · exact absurd hfield (not_delay_of_breaker hbreaker)
    · exact ⟨e, hretries, hfield⟩
    · exact absurd hfield (not_delay_of_observability hobservability)
  · rintro ⟨e, he, hfield⟩
    exact ⟨e, List.mem_append_left _ (List.mem_append_right _ he), hfield⟩

/-! ## Accepted configurations -/

theorem validate_eq_ok_iff {c c' : Config} : c.validate = .ok c' ↔ c.errors = [] ∧ c' = c := by
  simp only [validate, List.isEmpty_iff]
  split
  · rename_i h
    simp [h, eq_comm]
  · rename_i h
    simp [h]

/-- No policy is refused to an accepted configuration. -/
theorem policy_of_valid {c : Config} (h : c.errors = []) :
    ∃ policy, RetryPolicy.ofConfig c.retries = .ok policy := by
  have hmade : ¬ ∃ error, Backoff.make c.retries.baseDelay c.retries.maxDelay = .error error := by
    rw [← delays_faulted_iff, h]
    simp
  cases hbackoff : Backoff.make c.retries.baseDelay c.retries.maxDelay with
  | error error => exact absurd ⟨error, hbackoff⟩ hmade
  | ok backoff =>
      unfold RetryPolicy.ofConfig RetryPolicy.make
      rw [hbackoff]
      exact ⟨_, rfl⟩

/-- Every time between clears is positive. -/
theorem interval_pos_of_valid {c : Config} (h : c.errors = []) :
    0 < c.resolver.cacheClearInterval.toNanos := by
  have hms : c.resolver.cacheClearIntervalMs ≠ 0 := by
    rintro hzero
    have hmem : (⟨"resolver.cache_clear_interval_ms", .notPositive⟩ : ValidationError) ∈
        c.errors := by
      simp [errors, resolverErrors, mem_require, hzero]
    rw [h] at hmem
    exact List.not_mem_nil hmem
  rw [ResolverConfig.cacheClearInterval, Duration.toNanos_ofMillis64]
  have hne : c.resolver.cacheClearIntervalMs.toNat ≠ 0 := fun hzero =>
    hms (UInt64.toNat_inj.mp hzero)
  omega

end Config

end Dialer
