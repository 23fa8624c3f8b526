import Dialer.Breaker.Desk

/-!
# What one operation does to a breaker

Each operation of a breaker brings it up to the instant first (`Breaker.refresh`), and so the
operations are described from the breaker that is up to date:

* `refresh_cases` — nothing was due, or one generation has ended and another begun;
* `ask_breaker` — a call that passes is counted, one that is rejected leaves no trace;
* `record_told` — what an outcome does (`Told`): nothing if its generation is over, and
  otherwise one of the cases of `Heard`.

The operations of a desk do the same to its breaker, whatever the callbacks do besides.
-/

namespace Dialer.Breaker

/-! ## Time -/

/-- A generation has just begun: nothing of the one before is left. -/
@[simp] theorem enter_settings (b : Breaker) (state : CircuitState) (now : Nat) :
    (b.enter state now).settings = b.settings :=
  rfl

@[simp] theorem enter_state (b : Breaker) (state : CircuitState) (now : Nat) :
    (b.enter state now).state = state :=
  rfl

@[simp] theorem enter_generation (b : Breaker) (state : CircuitState) (now : Nat) :
    (b.enter state now).generation = b.generation + 1 :=
  rfl

@[simp] theorem enter_counts (b : Breaker) (state : CircuitState) (now : Nat) :
    (b.enter state now).counts = .zero :=
  rfl

@[simp] theorem enter_closed_expiry (b : Breaker) (now : Nat) :
    (b.enter .closed now).expiry = windowEnd b.settings now :=
  rfl

@[simp] theorem enter_opened_expiry (b : Breaker) (now : Nat) :
    (b.enter .opened now).expiry = (Clock.instant? now b.settings.openDuration).or b.expiry :=
  rfl

@[simp] theorem enter_halfOpen_expiry (b : Breaker) (now : Nat) :
    (b.enter .halfOpen now).expiry = none :=
  rfl

@[simp] theorem change_breaker (b : Breaker) (state : CircuitState) (now : Nat) :
    (b.change state now).breaker = b.enter state now := by
  unfold change
  split <;> rfl

/-- What the passing of time does: nothing, or the end of a rolling window, or the end of an
open period. -/
inductive Refreshed (b : Breaker) (now : Nat) : Breaker → List Transition → Prop
  | current (h : b.isExpired now = false ∨ b.state = .halfOpen) : Refreshed b now b []
  | window (hstate : b.state = .closed) (h : b.isExpired now = true) :
      Refreshed b now (b.enter .closed now) []
  | trial (hstate : b.state = .opened) (h : b.isExpired now = true) :
      Refreshed b now (b.enter .halfOpen now) [⟨.opened, .halfOpen⟩]

theorem refresh_cases (b : Breaker) (now : Nat) :
    Refreshed b now (b.refresh now).1 (b.refresh now).2 := by
  unfold refresh
  cases hexp : b.isExpired now with
  | false => exact .current (.inl hexp)
  | true =>
      rw [if_pos rfl]
      cases hstate : b.state with
      | closed => exact .window hstate hexp
      | opened => exact .trial hstate hexp
      | halfOpen => exact .current (.inr hstate)

/-- No time ends a half-open period. -/
theorem refresh_of_halfOpen {b : Breaker} (h : b.state = .halfOpen) (now : Nat) :
    b.refresh now = (b, []) := by
  unfold refresh
  rw [h]
  exact ite_self _

/-! ## Passing -/

theorem ask_breaker (b : Breaker) (now : Nat) :
    (b.ask now).breaker =
      match (b.refresh now).1.check with
      | .rejected _ => (b.refresh now).1
      | .admitted _ => { (b.refresh now).1 with counts := (b.refresh now).1.counts.request } := by
  unfold ask
  rcases b.refresh now with ⟨r, made⟩
  dsimp only
  cases r.check <;> rfl

theorem ask_answer (b : Breaker) (now : Nat) :
    (b.ask now).answer = (b.refresh now).1.check := by
  unfold ask
  rcases b.refresh now with ⟨r, made⟩
  dsimp only
  cases r.check <;> rfl

theorem ask_transitions (b : Breaker) (now : Nat) :
    (b.ask now).transitions = (b.refresh now).2 := by
  unfold ask
  rcases b.refresh now with ⟨r, made⟩
  dsimp only
  cases r.check <;> rfl

/-- A call passes while the circuit is closed, or half-open with a trial left; its generation
is the current one. -/
theorem check_eq_admitted {b : Breaker} {generation : UInt64} :
    b.check = .admitted generation ↔
      generation = b.generation ∧
        (b.state = .closed ∨ b.state = .halfOpen ∧ b.counts.requests < b.settings.trials) := by
  unfold check
  cases b.state with
  | opened => simp
  | closed => simp [eq_comm]
  | halfOpen =>
      by_cases hfull : b.settings.trials ≤ b.counts.requests
      · simp [hfull, Nat.not_lt.mpr hfull]
      · simp [hfull, Nat.lt_of_not_le hfull, eq_comm]

/-! ## Outcomes -/

/-- What an outcome of the current generation does. -/
inductive Heard (b : Breaker) (now : Nat) : Bool → Breaker → Prop
  /-- A success is counted. -/
  | success (h : b.state = .halfOpen → b.counts.success.successRun < b.settings.trials) :
      Heard b now true { b with counts := b.counts.success }
  /-- The last success that was wanted closes the circuit. -/
  | closes (hstate : b.state = .halfOpen)
      (h : b.settings.trials ≤ b.counts.success.successRun) : Heard b now true (b.enter .closed now)
  /-- A failure is counted, also if the trip predicate raises. -/
  | failure (hstate : b.state = .closed) : Heard b now false { b with counts := b.counts.failure }
  /-- A failure for which the trip predicate holds opens the circuit. -/
  | trips (hstate : b.state = .closed) : Heard b now false (b.enter .opened now)
  /-- The first failure of a trial opens the circuit again. -/
  | reopens (hstate : b.state = .halfOpen) : Heard b now false (b.enter .opened now)
  /-- An open circuit does not mind a failure. -/
  | unmoved (hstate : b.state = .opened) : Heard b now false b

/-- What an outcome does that comes in for a given generation. -/
inductive Told (b : Breaker) (now : Nat) (generation : UInt64) (success : Bool) : Breaker → Prop
  | stale (h : generation ≠ b.generation) : Told b now generation success b
  | heard {b' : Breaker} (h : generation = b.generation) (hears : Heard b now success b') :
      Told b now generation success b'

/-- An outcome for another generation is ignored. -/
theorem Told.eq_of_ne {b b' : Breaker} {now : Nat} {generation : UInt64} {success : Bool}
    (h : Told b now generation success b') (hother : generation ≠ b.generation) : b' = b := by
  cases h with
  | stale _ => rfl
  | heard hcurrent _ => exact absurd hcurrent hother

theorem Told.heard_of_eq {b b' : Breaker} {now : Nat} {generation : UInt64} {success : Bool}
    (h : Told b now generation success b') (hcurrent : generation = b.generation) :
    Heard b now success b' := by
  cases h with
  | stale hstale => exact absurd hcurrent hstale
  | heard _ hears => exact hears

theorem recordSuccess_heard (b : Breaker) (now : Nat) :
    Heard b now true (b.recordSuccess now).breaker := by
  unfold recordSuccess
  dsimp only
  split
  · rename_i h
    rw [change_breaker]
    exact .closes h.1 h.2
  · rename_i h
    exact .success (fun hstate => Nat.lt_of_not_le (fun hle => h ⟨hstate, hle⟩))

theorem recordFailure_heard (b : Breaker) (now : Nat) (trips : Counts → Reply Bool) :
    Heard b now false (b.recordFailure now trips).breaker := by
  obtain ⟨settings, state, generation, counts, expiry⟩ := b
  unfold recordFailure
  cases state with
  | closed =>
      dsimp only
      cases trips counts.failure with
      | raised => exact .failure rfl
      | returned answer =>
          cases answer with
          | true =>
              rw [change_breaker]
              exact .trips rfl
          | false => exact .failure rfl
  | halfOpen =>
      rw [change_breaker]
      exact .reopens rfl
  | opened => exact .unmoved rfl

theorem record_told (b : Breaker) (now : Nat) (generation : UInt64) (success : Bool)
    (trips : Counts → Reply Bool) :
    Told (b.refresh now).1 now generation success
      (b.record now generation success trips).breaker := by
  unfold record
  dsimp only
  by_cases hgen : generation = (b.refresh now).1.generation
  · rw [if_neg (fun hne => hne hgen)]
    cases success with
    | true => exact .heard hgen (recordSuccess_heard _ now)
    | false => exact .heard hgen (recordFailure_heard _ now trips)
  · rw [if_pos hgen]
    exact .stale hgen

end Dialer.Breaker

/-! ## The desk around the breaker -/

namespace Dialer.BreakerCallbacks

/-- What the breaker is told of a call that ends so; nothing, if the classifier raises. A call
that never ends by itself was dropped. -/
def verdict? (cb : BreakerCallbacks) : Outcome → Option Bool
  | .hangs | .raises => some false
  | .returns result =>
    match cb.succeeds (Desk.kindOf result) with
    | .returned success => some success
    | .raised => none

end Dialer.BreakerCallbacks

namespace Dialer.Desk

variable (cb : BreakerCallbacks) (d : Desk) (now : Nat)

/-- Reporting does not touch the breaker. -/
theorem report_breaker (made : List Transition) : (report cb d made).1.breaker = d.breaker := by
  induction made generalizing d with
  | nil => rfl
  | cons t rest ih =>
      unfold report
      cases cb.hook with
      | none => exact ih _
      | some hook =>
          dsimp only
          cases hook t with
          | raised => rfl
          | returned _ => exact ih _

/-- A hook that does not raise lets everything be reported. -/
theorem report_returned (hcalm : ∀ hook, cb.hook = some hook → ∀ t, hook t = .returned ())
    (made : List Transition) : (report cb d made).2 = .returned () := by
  induction made generalizing d with
  | nil => rfl
  | cons t rest ih =>
      unfold report
      cases hhook : cb.hook with
      | none => exact ih _
      | some hook =>
          dsimp only
          rw [hcalm hook hhook t]
          exact ih _

theorem enter_breaker : (d.enter cb now).1.breaker = (d.breaker.ask now).breaker := by
  unfold enter
  dsimp only
  have hreport := report_breaker cb { d with breaker := (d.breaker.ask now).breaker }
    (d.breaker.ask now).transitions
  split
  · rename_i hraised
    rw [hraised] at hreport
    exact hreport
  · rename_i hreturned
    rw [hreturned] at hreport
    split
    · exact hreport
    · exact hreport

/-- Who gets past the desk has been admitted, and who is rejected was rejected by the
breaker; only a hook that raises can come between. -/
theorem enter_entry :
    (d.enter cb now).2 = .raised ∨
      (d.enter cb now).2 = match (d.breaker.ask now).answer with
        | .admitted generation => .passed generation
        | .rejected error => .rejected error := by
  unfold enter
  dsimp only
  -- the report comes before the answer is looked at, and its reply decides
  rcases report cb { d with breaker := (d.breaker.ask now).breaker }
    (d.breaker.ask now).transitions with ⟨d', reply⟩
  cases reply with
  | raised => exact .inl rfl
  | returned _ =>
      cases (d.breaker.ask now).answer with
      | admitted generation => exact .inr rfl
      | rejected error => exact .inr rfl

/-- If the report of the changes made does not raise, the breaker's answer stands. -/
theorem enter_entry_of_report
    (hreport : (report cb { d with breaker := (d.breaker.ask now).breaker }
      (d.breaker.ask now).transitions).2 = .returned ()) :
    (d.enter cb now).2 = match (d.breaker.ask now).answer with
      | .admitted generation => .passed generation
      | .rejected error => .rejected error := by
  unfold enter
  dsimp only
  split
  · rename_i hraised
    rw [hraised] at hreport
    exact absurd hreport (by simp)
  · cases (d.breaker.ask now).answer <;> rfl

/-- To record an outcome is to report what the breaker could tell. -/
theorem record_desk (generation : UInt64) (success : Bool) :
    let step := d.breaker.record now generation success cb.trips
    (d.record cb now generation success).1 =
      (report cb { d with breaker := step.breaker } step.transitions).1 := by
  unfold record
  dsimp only
  split
  · rename_i hraised
    rw [hraised]
  · rename_i hreturned
    rw [hreturned]

theorem record_breaker (generation : UInt64) (success : Bool) :
    (d.record cb now generation success).1.breaker =
      (d.breaker.record now generation success cb.trips).breaker := by
  rw [record_desk]
  exact report_breaker cb _ _

/-- A call that ends is recorded by its verdict. Without one the desk is left as it is. -/
theorem leave_desk (generation : UInt64) (outcome : Outcome) :
    (d.leave cb now generation outcome).1 =
      match cb.verdict? outcome with
      | some success => (d.record cb now generation success).1
      | none => d := by
  cases outcome with
  | hangs =>
      simp only [leave, BreakerCallbacks.verdict?]
      rcases d.record cb now generation false with ⟨d', _ | _⟩ <;> rfl
  | raises => rfl
  | returns result =>
      simp only [leave, BreakerCallbacks.verdict?]
      cases cb.succeeds (kindOf result) with
      | raised => rfl
      | returned success =>
          dsimp only
          rcases d.record cb now generation success with ⟨d', _ | _⟩ <;> rfl

theorem observe_breaker : (d.observe cb now).1.breaker = (d.breaker.refresh now).1 := by
  unfold observe
  dsimp only
  have hreport := report_breaker cb { d with breaker := (d.breaker.observe now).breaker }
    (d.breaker.observe now).transitions
  split
  · rename_i hraised
    rw [hraised] at hreport
    exact hreport
  · rename_i hreturned
    rw [hreturned] at hreport
    exact hreport

end Dialer.Desk
