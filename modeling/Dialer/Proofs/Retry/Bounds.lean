import Dialer.Proofs.Retry.Histories
import Dialer.Proofs.Retry.Waits

/-!
# Sessions with an end

A session that goes on after an attempt has been allowed another one, and if it stops at the cap its
generator has handed out a delay below it, which moves the index on. Below the cap an index is less
than 32, wherever the cap is. So whatever the attempts come to, a session with a limit is `Underway`
for a bounded number of them: the allowed ones but the last, and 32 if it stops at the cap. As long
as it is, the number of the next attempt is one more than that of the attempts made.
-/

namespace Dialer

namespace RetryPolicy

variable {p q : RetryPolicy} {number : UInt32} {error : CallError} {delay : Duration}

/-- What is followed by a pause was not the last attempt allowed; the pause is the next delay, which
is below the cap if the policy stops there. -/
theorem continueAfter_eq_pause (h : p.continueAfter number error = (.pause delay, q)) :
    ¬ p.Exhausts number ∧ delay = p.backoff.next.1 ∧
      (p.stopAtCap = true → p.backoff.next.1 < p.backoff.max) ∧
      q = { p with backoff := p.backoff.next.2 } := by
  have hcases := p.ask_cases ⟨number, error⟩
  unfold continueAfter at h
  unfold ask at hcases
  rcases hcases with ⟨-, hask⟩ | ⟨-, -, hask⟩ | ⟨⟨-, hnot⟩, hask⟩ <;> rw [hask] at h
  · cases h
  · cases h
  by_cases hcap : p.stopAtCap = true ∧ p.backoff.max ≤ p.backoff.next.1
  · rw [if_pos hcap] at h
    cases h
  · rw [if_neg hcap] at h
    cases h
    exact ⟨hnot, rfl, fun hstop => Nat.lt_of_not_le fun hle => hcap ⟨hstop, hle⟩, rfl⟩

end RetryPolicy

namespace Retry

variable {c : Conditions}

theorem Conditions.wait_of_watched (hwatched : c.observedUntil = none) (now t : Nat) :
    c.wait now (some t) = some (.due t) ∨ ∃ x, c.wait now (some t) = some (.cancelled x) := by
  unfold wait
  rw [hwatched]
  cases c.cancelledAt with
  | none => exact .inl rfl
  | some x =>
      dsimp only
      split
      · exact .inr ⟨_, rfl⟩
      · exact .inl rfl

namespace Session

variable {p : RetryPolicy} {s after : Session} {k n now : Nat} {number : UInt32} {outcome : Outcome}

/-! ## After an attempt -/

/-- How a session goes on after an attempt. -/
inductive Settled (c : Conditions) (s : Session) (number : UInt32) (now : Nat) :
    Outcome → Session → Prop
  | done (outcome : Outcome) (result : CallResult) (policy : RetryPolicy) :
      Settled c s number now outcome { s with now, policy, phase := .done result }
  | raised : Settled c s number now .raises (s.finish .raised now)
  | hung : Settled c s number now .hangs (s.finish .stalled now)
  /-- The pause would be out of range. -/
  | overlong {error : CallError} {delay : Duration} {policy : RetryPolicy}
      (hcontinue : s.policy.continueAfter number error = (.pause delay, policy))
      (hjitter : Backoff.jittered? delay c.jitterRatio (c.draw s.retries) = none) :
      Settled c s number now (.returns (.error error)) { s with now, policy, phase := .raised }
  | paused {error : CallError} {delay lasting : Duration} {policy : RetryPolicy}
      (hcontinue : s.policy.continueAfter number error = (.pause delay, policy))
      (hjitter : Backoff.jittered? delay c.jitterRatio (c.draw s.retries) = some lasting) :
      Settled c s number now (.returns (.error error))
        { s with
          now
          policy
          phase := .pausing (Clock.wake now lasting) (number + 1)
          retries := s.retries + 1 }

theorem settle_settled (c : Conditions) (s : Session) (number : UInt32) (outcome : Outcome)
    (now : Nat) : Settled c s number now outcome (s.settle c number outcome now) := by
  unfold settle
  cases outcome with
  | hangs => exact .hung
  | raises => exact .raised
  | returns result =>
      cases result with
      | ok value => exact .done _ (.ok value) s.policy
      | error error =>
          dsimp only
          rcases hcontinue : s.policy.continueAfter number error with ⟨delay | last, policy⟩
          · dsimp only
            cases hjitter : Backoff.jittered? delay c.jitterRatio (c.draw s.retries) with
            | none => exact .overlong hcontinue hjitter
            | some lasting => exact .paused hcontinue hjitter
          · exact .done _ (.error last) policy

/-! ## Up to the limit -/

/-- A session that has made a number of attempts, each of which was followed by a pause. -/
structure Underway (p : RetryPolicy) (k : Nat) (number : UInt32) (s : Session) : Prop where
  invoked : s.invoked.length = k
  number_eq : number.toNat = k + 1
  maxAttempts : s.policy.maxAttempts = p.maxAttempts
  stopAtCap : s.policy.stopAtCap = p.stopAtCap
  max_eq : s.policy.backoff.max = p.backoff.max
  allowed : 0 < p.maxAttempts.toNat → k < p.maxAttempts.toNat
  drawn : p.stopAtCap = true → k ≤ s.policy.backoff.index.toNat ∧ k ≤ 32

theorem underway_start (p : RetryPolicy) (now : Nat) : Underway p 0 1 (startWith p now) :=
  ⟨rfl, rfl, rfl, rfl, rfl, id, fun _ => ⟨Nat.zero_le _, Nat.zero_le _⟩⟩

/-- A session with a limit: a number of attempts, or the cap of its delays. -/
def Limited (p : RetryPolicy) : Prop :=
  0 < p.maxAttempts.toNat ∨ p.stopAtCap = true

/-- What makes a session end by an exception: an attempt that does so, or a delay that jitter takes
out of range. -/
def CanRaise (p : RetryPolicy) (c : Conditions) : Prop :=
  (∃ k, (c.operation k).outcome = .raises) ∨
    ∃ delay retry, delay ≤ p.backoff.max ∧
      Backoff.jittered? delay c.jitterRatio (c.draw retry) = none

/-- A pause leaves one attempt more behind it, and with a limit another one is in reach. -/
theorem Underway.next (h : Underway p k number s) (hlimited : Limited p) {error : CallError}
    {delay : Duration} {policy : RetryPolicy}
    (hcontinue : s.policy.continueAfter number error = (.pause delay, policy))
    (hpolicy : after.policy = policy) (hinvoked : after.invoked = s.now :: s.invoked) :
    Underway p (k + 1) (number + 1) after := by
  obtain ⟨hnot, -, hbelow, rfl⟩ := RetryPolicy.continueAfter_eq_pause hcontinue
  have hnumber := h.number_eq
  have hwidth := p.maxAttempts.toNat_lt
  have hallowed : 0 < p.maxAttempts.toNat → k + 1 < p.maxAttempts.toNat := by
    intro hpos
    refine Nat.lt_of_not_le fun hle => hnot ⟨?_, ?_⟩
    · rwa [h.maxAttempts]
    · rwa [h.maxAttempts, UInt32.le_iff_toNat_le, hnumber]
  have hdrawn : p.stopAtCap = true →
      k + 1 ≤ s.policy.backoff.next.2.index.toNat ∧ k + 1 ≤ 32 := by
    intro hstop
    obtain ⟨hsmall, hnext⟩ := Backoff.next_index_of_lt (hbelow (h.stopAtCap.trans hstop))
    have hindex := (h.drawn hstop).1
    omega
  have hwide : (number + 1).toNat = k + 1 + 1 := by
    rw [UInt32.toNat_add, UInt32.toNat_one, hnumber]
    rcases hlimited with hpos | hstop
    · have hmore := hallowed hpos
      omega
    · have hmore := (hdrawn hstop).2
      omega
  refine ⟨?_, hwide, ?_, ?_, ?_, hallowed, ?_⟩
  · rw [hinvoked, List.length_cons, h.invoked]
  · rw [hpolicy, ← h.maxAttempts]
  · rw [hpolicy, ← h.stopAtCap]
  · rw [hpolicy, ← h.max_eq]
    exact Backoff.next_max _
  · rw [hpolicy]
    exact hdrawn

/-- A session that has come from its last attempt to the next one by a number of steps: an attempt
takes one, and so does a pause. -/
inductive Comes (p : RetryPolicy) (k : Nat) (s : Session) : Nat → Prop
  | ready {number : UInt32} (h : Underway p k number s) (hphase : s.phase = .ready number) :
      Comes p k s (2 * k)
  | pausing {number : UInt32} {resume n : Nat} (h : Underway p k number s)
      (hphase : s.phase = .pausing resume number) (hn : n + 1 = 2 * k) : Comes p k s n

/-- What a session that is underway comes to in one step: at most one attempt more, an exception
only for a cause, and if it is not over, it is underway again. -/
structure Stepped (p : RetryPolicy) (c : Conditions) (k n : Nat) (after : Session) : Prop where
  invoked : after.invoked.length ≤ k + 1
  raised : after.phase = .raised → CanRaise p c
  comes : after.isOver = false → ∃ k', Comes p k' after (n + 1)

theorem Underway.settled (h : Underway p k number s) (hlimited : Limited p)
    (hsettled : Settled c s.invoking number now outcome after)
    (hraises : outcome = .raises → CanRaise p c) : Stepped p c k (2 * k) after := by
  have hinvoked : s.invoking.invoked.length ≤ k + 1 := by
    rw [invoking, List.length_cons, h.invoked]
  cases hsettled with
  | done _ result policy => exact ⟨hinvoked, by simp, fun hgoes => by cases hgoes⟩
  | raised => exact ⟨hinvoked, fun _ => hraises rfl, fun hgoes => by cases hgoes⟩
  | hung => exact ⟨hinvoked, by simp [finish], fun hgoes => by cases hgoes⟩
  | overlong hcontinue hjitter =>
      obtain ⟨-, hdelay, -⟩ := RetryPolicy.continueAfter_eq_pause hcontinue
      have hle : s.policy.backoff.next.1 ≤ s.policy.backoff.max := Backoff.delay_le _
      refine ⟨hinvoked, fun _ => .inr ⟨_, _, ?_, hjitter⟩, fun hgoes => by cases hgoes⟩
      rw [hdelay, ← h.max_eq]
      exact hle
  | paused hcontinue hjitter =>
      exact ⟨hinvoked, by simp,
        fun _ => ⟨k + 1, .pausing (h.next hlimited hcontinue rfl rfl) rfl (by omega)⟩⟩

/-- **One step.** -/
theorem Comes.step (h : Comes p k s n) (hlimited : Limited p) (c : Conditions) :
    Stepped p c k n (s.step c) := by
  cases h with
  | @ready number h hphase =>
      obtain ⟨_, _, -, hmade⟩ := step_made c hphase
      have hinvoked : s.invoking.invoked.length ≤ k + 1 := by
        rw [invoking, List.length_cons, h.invoked]
      have hsettles (now : Nat) : Stepped p c k (2 * k)
          (s.invoking.settle c number (c.operation s.invoked.length).outcome now) :=
        h.settled hlimited (settle_settled c _ number _ now) fun hraises => .inl ⟨_, hraises⟩
      generalize s.step c = after at hmade ⊢
      cases hmade with
      | refused _ => exact ⟨hinvoked, by simp [finish], fun hgoes => by cases hgoes⟩
      | immediate _ _ => exact hsettles _
      | ended _ _ _ _ => exact hsettles _
      | cut _ _ _ => exact ⟨hinvoked, by simp [finish], fun hgoes => by cases hgoes⟩
      | watched _ => exact ⟨hinvoked, by simp [finish], fun hgoes => by cases hgoes⟩
  | pausing h hphase hn =>
      obtain ⟨_, -, hpaused⟩ := step_paused c hphase
      have hinvoked : s.invoked.length ≤ k + 1 := by
        rw [h.invoked]
        omega
      generalize s.step c = after at hpaused ⊢
      cases hpaused with
      | ended _ =>
          refine ⟨hinvoked, by simp [finish], fun _ => ⟨k, hn ▸ .ready ⟨h.invoked, h.number_eq,
            h.maxAttempts, h.stopAtCap, h.max_eq, h.allowed, h.drawn⟩ rfl⟩⟩
      | cut _ _ => exact ⟨hinvoked, by simp [finish], fun hgoes => by cases hgoes⟩
      | watched _ => exact ⟨hinvoked, by simp [finish], fun hgoes => by cases hgoes⟩

/-- How many steps a session can be underway for, and how many attempts it has made by then. -/
theorem Comes.bounds (h : Comes p k s n) :
    n ≤ 2 * k ∧ s.invoked.length = k ∧ (0 < p.maxAttempts.toNat → k < p.maxAttempts.toNat) ∧
      (p.stopAtCap = true → k ≤ 32) := by
  cases h with
  | ready h _ => exact ⟨Nat.le_refl _, h.invoked, h.allowed, fun hstop => (h.drawn hstop).2⟩
  | pausing h _ hn => exact ⟨by omega, h.invoked, h.allowed, fun hstop => (h.drawn hstop).2⟩

/-- The session is within its limits, and has ended by an exception only for a cause. -/
structure Bounded (p : RetryPolicy) (c : Conditions) (s : Session) : Prop where
  allowed : 0 < p.maxAttempts.toNat → s.invoked.length ≤ p.maxAttempts.toNat
  capped : p.stopAtCap = true → s.invoked.length ≤ 33
  raised : s.phase = .raised → CanRaise p c

/-- **Any number of steps.** -/
theorem run_bounded (hlimited : Limited p) (c : Conditions) (now n : Nat) :
    let s := run c n (startWith p now)
    Bounded p c s ∧ (s.isOver = false → ∃ k, Comes p k s n) := by
  induction n with
  | zero =>
      exact ⟨⟨fun _ => Nat.zero_le _, fun _ => Nat.zero_le _, fun hphase => by cases hphase⟩,
        fun _ => ⟨0, .ready (underway_start p now) rfl⟩⟩
  | succ n ih =>
      obtain ⟨hbounded, hcomes⟩ := ih
      by_cases hover : (run c n (startWith p now)).isOver = true
      · dsimp only
        rw [run_add, run_of_isOver c hover]
        exact ⟨hbounded, fun hgoes => absurd hover (by simp [hgoes])⟩
      · obtain ⟨k, hk⟩ := hcomes (Bool.eq_false_iff.mpr hover)
        obtain ⟨-, -, hallowed, hcap⟩ := hk.bounds
        have hstep := hk.step hlimited c
        have hmade := hstep.invoked
        dsimp only
        rw [run_succ]
        refine ⟨⟨fun hpos => ?_, fun hstop => ?_, hstep.raised⟩, hstep.comes⟩
        · have hmore := hallowed hpos
          omega
        · have hmore := hcap hstop
          omega

/-! ## To the end -/

/-- Who watches a session whose attempts all end does not miss its end. -/
theorem step_watched (hwatched : c.observedUntil = none)
    (hends : (c.operation s.invoked.length).outcome ≠ .hangs) (hattended : s.phase ≠ .stalled) :
    (s.step c).phase ≠ .stalled := by
  unfold step
  cases hphase : s.phase with
  | stalled => exact absurd hphase hattended
  | done result => simp [hphase]
  | raised => simp [hphase]
  | pausing resume number =>
      dsimp only
      unfold pause
      rcases c.wait_of_watched hwatched s.now resume with hwait | ⟨x, hwait⟩ <;> rw [hwait] <;>
        simp [finish]
  | ready number =>
      have hsettles (now : Nat) := (settle_spec c s.invoking number _ now).2.2 hends
      obtain ⟨due, hdue⟩ :
          ∃ due, (c.operation s.invoked.length).endsAt s.now = some due := by
        unfold Behaviour.endsAt
        split
        · exact absurd ‹_› hends
        · exact ⟨_, rfl⟩
      dsimp only
      unfold Session.attempt
      dsimp only
      split
      · simp [finish]
      split
      · exact hsettles s.now
      · rw [hdue]
        rcases c.wait_of_watched hwatched s.now due with hwait | ⟨x, hwait⟩ <;> rw [hwait]
        · exact hsettles due
        · simp [finish]

/-- The session will make the attempt of this number, at once or behind a pause. -/
def Awaits (s : Session) (number : UInt32) : Prop :=
  s.phase = .ready number ∨ ∃ resume, s.phase = .pausing resume number

theorem Comes.number_eq (h : Comes p k s n) (hawaits : s.Awaits number) :
    number.toNat = s.invoked.length + 1 := by
  cases h with
  | ready h hphase =>
      rcases hawaits with hready | ⟨resume, hpausing⟩
      · obtain rfl := Phase.ready.inj (hphase.symm.trans hready)
        rw [h.number_eq, h.invoked]
      · cases hphase.symm.trans hpausing
  | pausing h hphase hn =>
      rcases hawaits with hready | ⟨resume, hpausing⟩
      · cases hphase.symm.trans hready
      · obtain rfl := (Phase.pausing.inj (hphase.symm.trans hpausing)).2
        rw [h.number_eq, h.invoked]

/-- **A session with a limit ends.** Under a policy that allows a number of attempts or stops at the
cap, in whatever state its generator is and whatever its bounds are, and for any attempts that all
come to an end, a session ends with a result, or by an exception of an attempt or of a pause that
jitter takes out of range. Until then it invokes the operation no more often than it may, and no
more than 33 times if it stops at the cap, and the number of its next attempt is one more than that
of the invocations before: the counter never overflows. -/
theorem bounded_session (hlimited : Limited p)
    (hends : ∀ k, (c.operation k).outcome ≠ .hangs) (hwatched : c.observedUntil = none)
    (now : Nat) :
    let session (steps : Nat) := run c steps (startWith p now)
    (∃ last, ∀ steps, last ≤ steps → (∃ result, (session steps).phase = .done result) ∨
      (session steps).phase = .raised ∧ CanRaise p c) ∧
    ∀ steps,
      (0 < p.maxAttempts.toNat → (session steps).invoked.length ≤ p.maxAttempts.toNat) ∧
      (p.stopAtCap = true → (session steps).invoked.length ≤ 33) ∧
      ∀ number, (session steps).Awaits number →
        number.toNat = (session steps).invoked.length + 1 := by
  intro session
  have hrun (steps : Nat) := run_bounded hlimited c now steps
  have hattended (steps : Nat) : (session steps).phase ≠ .stalled := by
    induction steps with
    | zero => simp [session, run, startWith]
    | succ steps ih =>
        show (run c (steps + 1) (startWith p now)).phase ≠ .stalled
        rw [run_succ]
        exact step_watched hwatched (hends _) ih
  -- each attempt takes two steps at most, so no session is underway behind the last one
  have hover : ∃ last, ∀ steps, last ≤ steps → (session steps).isOver = true := by
    refine ⟨2 * p.maxAttempts.toNat + 65, fun steps hsteps => ?_⟩
    refine Bool.of_not_eq_false fun hgoes => ?_
    obtain ⟨k, hk⟩ := (hrun steps).2 hgoes
    obtain ⟨hle, -, hallowed, hcap⟩ := hk.bounds
    rcases hlimited with hpos | hstop
    · have hmore := hallowed hpos
      omega
    · have hmore := hcap hstop
      omega
  refine ⟨hover.imp fun last hlast steps hsteps => ?_, fun steps => ?_⟩
  · have hend := hlast steps hsteps
    have hcause := (hrun steps).1.raised
    have hnot := hattended steps
    unfold isOver at hend
    cases hphase : (session steps).phase with
    | ready number => simp [hphase] at hend
    | pausing resume number => simp [hphase] at hend
    | stalled => exact absurd hphase hnot
    | done result => exact .inl ⟨result, rfl⟩
    | raised => exact .inr ⟨rfl, hcause hphase⟩
  · refine ⟨(hrun steps).1.allowed, (hrun steps).1.capped, fun number hawaits => ?_⟩
    have hgoes : (session steps).isOver = false := by
      unfold isOver
      rcases hawaits with hready | ⟨resume, hpausing⟩
      · rw [hready]
      · rw [hpausing]
    obtain ⟨k, hk⟩ := (hrun steps).2 hgoes
    exact hk.number_eq hawaits

/-- Between a nanosecond and five seconds no doubling hits the cap: 33 attempts that all fail. -/
theorem bounded_session_capped :
    let p : RetryPolicy :=
      ⟨⟨⟨0, 1, by decide, by decide⟩, ⟨5, 0, by decide, by decide⟩, 0⟩, 0, true⟩
    let c := Conditions.undisturbed (fun _ => .error (.failed "unavailable")) (fun _ => .zero)
      fun _ => 0.0
    let session (steps : Nat) := run c steps (startWith p 0)
    Limited p ∧ (∀ k, (c.operation k).outcome ≠ .hangs) ∧ c.observedUntil = none ∧
      (∃ last, ∀ steps, last ≤ steps → (∃ result, (session steps).phase = .done result) ∨
        (session steps).phase = .raised ∧ CanRaise p c) ∧
      (∀ steps, (session steps).invoked.length ≤ 33) ∧ (session 65).invoked.length = 33 := by
  intro p c session
  have hlimited : Limited p := .inr rfl
  have hends (k : Nat) : (c.operation k).outcome ≠ .hangs := by simp [c, Conditions.undisturbed]
  obtain ⟨hend, hbounds⟩ := bounded_session hlimited hends rfl 0
  exact ⟨hlimited, hends, rfl, hend, fun steps => (hbounds steps).2.1 rfl, by decide +kernel⟩

end Session

end Retry

end Dialer
