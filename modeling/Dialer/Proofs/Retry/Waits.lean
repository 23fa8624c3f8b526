import Dialer.Proofs.Retry.Course
import Dialer.Retry.Future

/-!
# From one wait to the next

What a step of a retry session comes to, said once for each kind of step: how a wait ends
(`Conditions.Waited`), what an attempt leads to and what is done with its future (`Session.Made`),
and how a pause ends (`Session.Paused`).

A session that is going to be cancelled goes on up to that instant as if nobody were to cancel it
(`Session.run_uncancelled`).
-/

namespace Dialer.Retry

/-! ## One wait -/

/-- How a wait ends. -/
inductive Conditions.Waited (c : Conditions) (now : Nat) (due : Option Nat) : Option Wake → Prop
  /-- With what it is for, if the token has not been cancelled by then. -/
  | due {t : Nat} (hdue : due = some t) (hcalm : c.isCancelled t = false) :
      Waited c now due (some (.due t))
  /-- With a cancellation that comes no later. -/
  | cancelled {x : Nat} (hcancelled : c.cancelledAt = some x) (hlate : ∀ t ∈ due, x ≤ t) :
      Waited c now due (some (.cancelled (max now x)))
  /-- The observer leaves before either. -/
  | left {g : Nat} (hleaves : c.observedUntil = some g) (hlate : ∀ x ∈ c.cancelledAt, g < x) :
      Waited c now due (some (.left g))
  | forever : c.cancelledAt = none → Waited c now due none

theorem Conditions.wait_waited (c : Conditions) (now : Nat) (due : Option Nat) :
    c.Waited now due (c.wait now due) := by
  obtain ⟨operation, ratio, draw, cancelledAt, observedUntil⟩ := c
  unfold wait
  cases cancelledAt with
  | none =>
      have hcalm (t : Nat) :
          isCancelled ⟨operation, ratio, draw, none, observedUntil⟩ t = false := rfl
      cases due <;> cases observedUntil <;> dsimp only
      · exact .forever rfl
      · exact .left rfl (by simp)
      · exact .due rfl (hcalm _)
      · split
        · exact .due rfl (hcalm _)
        · exact .left rfl (by simp)
  | some x =>
      have hcalm {t : Nat} (hlate : ¬ x ≤ t) :
          isCancelled ⟨operation, ratio, draw, some x, observedUntil⟩ t = false := by
        simp [isCancelled, Nat.lt_of_not_le hlate]
      cases due with
      | none =>
          cases observedUntil <;> dsimp only
          · exact .cancelled rfl (by simp)
          · split
            · exact .cancelled rfl (by simp)
            · exact .left rfl (by simpa using Nat.lt_of_not_le ‹_›)
      | some t =>
          cases observedUntil with
          | none =>
              dsimp only
              split
              · exact .cancelled rfl (by simpa using ‹_›)
              · exact .due rfl (hcalm ‹_›)
          | some g =>
              by_cases hdue : t ≤ g
              · simp only [hdue, if_true]
                split
                · exact .cancelled rfl (by simpa using ‹_›)
                · exact .due rfl (hcalm ‹_›)
              · simp only [hdue, if_false]
                split
                · refine .cancelled rfl ?_
                  simp only [Option.mem_def, Option.some.injEq, forall_eq']
                  omega
                · exact .left rfl (by simpa using Nat.lt_of_not_le ‹_›)

/-- The session is cancelled at an instant, and watched until then. -/
structure Conditions.Cancels (c : Conditions) (x : Nat) : Prop where
  cancelled : c.cancelledAt = some x
  watched : ∀ g ∈ c.observedUntil, x ≤ g

/-- The same conditions, but nobody cancels. -/
def Conditions.uncancelled (c : Conditions) : Conditions :=
  { c with cancelledAt := none }

variable {c : Conditions} {x : Nat}

theorem Conditions.Cancels.isCancelled (h : c.Cancels x) (now : Nat) :
    c.isCancelled now = decide (x ≤ now) := by
  simp [Conditions.isCancelled, h.cancelled]

theorem Conditions.Cancels.eq (h : c.Cancels x) {y : Nat} (hy : c.cancelledAt = some y) : y = x :=
  Option.some.inj (hy.symm.trans h.cancelled)

theorem Conditions.not_cancels_of_never (h : c.cancelledAt = none) (x : Nat) : ¬ c.Cancels x := by
  intro hcancels
  exact absurd (h.symm.trans hcancels.cancelled) (by simp)

theorem Conditions.not_cancels_of_left {g : Nat} (hleaves : c.observedUntil = some g)
    (hlate : ∀ x ∈ c.cancelledAt, g < x) (x : Nat) : ¬ c.Cancels x := by
  intro hcancels
  exact absurd (hlate x hcancels.cancelled) (Nat.not_lt.mpr (hcancels.watched g hleaves))

/-! ## One step -/

namespace Session

variable {s : Session} {attempt : UInt32}

/-- The session that has invoked its operation once more. -/
def invoking (s : Session) : Session :=
  { s with invoked := s.now :: s.invoked }

/-- What a session comes to that makes an attempt: when it is polled, and what it does with the
future of the attempt, the latest first. -/
inductive Made (c : Conditions) (s : Session) (attempt : UInt32) :
    List Nat → List (Nat × Deed) → Session → Prop
  /-- It has been cancelled already. -/
  | refused (hcancelled : c.isCancelled s.now = true) :
      Made c s attempt [s.now]
        [(s.now, .drops s.invoked.length), (s.now, .invokes s.invoked.length)]
        (s.invoking.finish (.done (.error .cancelled)) s.now)
  /-- The attempt takes no time. -/
  | immediate (hcalm : c.isCancelled s.now = false)
      (hends : (c.operation s.invoked.length).endsAt s.now = some s.now) :
      Made c s attempt [s.now]
        [(s.now, .polls s.invoked.length), (s.now, .invokes s.invoked.length)]
        (s.invoking.settle c attempt (c.operation s.invoked.length).outcome s.now)
  | ended {t : Nat} (hcalm : c.isCancelled s.now = false)
      (hends : (c.operation s.invoked.length).endsAt s.now = some t) (hlater : s.now < t)
      (hend : c.isCancelled t = false) :
      Made c s attempt [s.now, t]
        [(t, .polls s.invoked.length), (s.now, .polls s.invoked.length),
          (s.now, .invokes s.invoked.length)]
        (s.invoking.settle c attempt (c.operation s.invoked.length).outcome t)
  | cut {x : Nat} (hcancelled : c.cancelledAt = some x) (hearly : s.now < x)
      (hlate : ∀ t ∈ (c.operation s.invoked.length).endsAt s.now, s.now < t ∧ x ≤ t) :
      Made c s attempt [s.now, x]
        [(x, .drops s.invoked.length), (s.now, .polls s.invoked.length),
          (s.now, .invokes s.invoked.length)]
        (s.invoking.finish (.done (.error .cancelled)) x)
  /-- It is not watched to its end. -/
  | watched {t : Nat} (hleaves : ∀ x, ¬ c.Cancels x) :
      Made c s attempt [s.now]
        [(s.now, .polls s.invoked.length), (s.now, .invokes s.invoked.length)]
        (s.invoking.finish .stalled t)

theorem step_made (c : Conditions) (hphase : s.phase = .ready attempt) :
    ∃ wakes new, s.wakes c = wakes ∧ Made c s attempt wakes new (s.step c) := by
  have hstep : s.step c = s.attempt c attempt := by simp [step, hphase]
  rw [hstep]
  unfold wakes Session.attempt
  simp only [hphase]
  by_cases hcancelled : c.isCancelled s.now = true
  · simp only [hcancelled, true_or, if_true]
    exact ⟨_, _, rfl, .refused hcancelled⟩
  have hcalm : c.isCancelled s.now = false := Bool.eq_false_iff.mpr hcancelled
  by_cases hends : (c.operation s.invoked.length).endsAt s.now = some s.now
  · simp only [hcalm, hends, or_true, if_true, if_false, Bool.false_eq_true]
    exact ⟨_, _, rfl, .immediate hcalm hends⟩
  have hlater (t : Nat) (ht : (c.operation s.invoked.length).endsAt s.now = some t) :
      s.now < t := by
    refine Nat.lt_of_le_of_ne (Behaviour.le_endsAt ht) ?_
    rintro rfl
    exact hends ht
  have hwaited := c.wait_waited s.now ((c.operation s.invoked.length).endsAt s.now)
  simp only [hcalm, hends, or_self, if_false, Bool.false_eq_true]
  generalize c.wait s.now ((c.operation s.invoked.length).endsAt s.now) = wake at hwaited ⊢
  cases hwaited with
  | due hdue hend => exact ⟨_, _, rfl, .ended hcalm hdue (hlater _ hdue) hend⟩
  | left hleaves hlate => exact ⟨_, _, rfl, .watched (Conditions.not_cancels_of_left hleaves hlate)⟩
  | forever hnever => exact ⟨_, _, rfl, .watched (Conditions.not_cancels_of_never hnever)⟩
  | @cancelled x hx hlate =>
      have hearly : s.now < x := by simpa [Conditions.isCancelled, hx] using hcalm
      simp only [Option.bind_some, Wake.time?, Option.toList_some,
        Nat.max_eq_right (Nat.le_of_lt hearly)]
      exact ⟨_, _, rfl, .cut hx hearly fun t ht => ⟨hlater t ht, hlate t ht⟩⟩

/-- What a session comes to that pauses, and when it is polled. -/
inductive Paused (c : Conditions) (s : Session) (resume : Nat) (attempt : UInt32) :
    List Nat → Session → Prop
  | ended (hcalm : c.isCancelled resume = false) :
      Paused c s resume attempt [resume] (s.finish (.ready attempt) resume)
  | cut {x : Nat} (hcancelled : c.cancelledAt = some x) (hlate : x ≤ resume) :
      Paused c s resume attempt [max s.now x]
        (s.finish (.done (.error .cancelled)) (max s.now x))
  | watched {t : Nat} (hleaves : ∀ x, ¬ c.Cancels x) :
      Paused c s resume attempt [] (s.finish .stalled t)

theorem step_paused (c : Conditions) {resume : Nat} (hphase : s.phase = .pausing resume attempt) :
    ∃ wakes, s.wakes c = wakes ∧ Paused c s resume attempt wakes (s.step c) := by
  have hstep : s.step c = s.pause c resume attempt := by simp [step, hphase]
  have hwaited := c.wait_waited s.now (some resume)
  rw [hstep]
  unfold wakes pause
  simp only [hphase]
  generalize c.wait s.now (some resume) = wake at hwaited ⊢
  cases hwaited with
  | @due t hdue hcalm =>
      obtain rfl : resume = t := Option.some.inj hdue
      exact ⟨_, rfl, .ended hcalm⟩
  | cancelled hx hlate => exact ⟨_, rfl, .cut hx (hlate resume rfl)⟩
  | left hleaves hlate => exact ⟨_, rfl, .watched (Conditions.not_cancels_of_left hleaves hlate)⟩
  | forever hnever => exact ⟨_, rfl, .watched (Conditions.not_cancels_of_never hnever)⟩

/-- A pause ends in the future. -/
def Paced (s : Session) : Prop :=
  ∀ resume attempt, s.phase = .pausing resume attempt → s.now ≤ resume

/-- How a session goes on after an attempt: at that instant, and not without an end unless the
attempt has none. -/
theorem settle_spec (c : Conditions) (s : Session) (attempt : UInt32) (outcome : Outcome)
    (now : Nat) :
    let after := s.settle c attempt outcome now
    after.now = now ∧ after.Paced ∧ (outcome ≠ .hangs → after.phase ≠ .stalled) := by
  unfold settle
  cases outcome with
  | hangs => simp [Paced, finish]
  | raises => simp [Paced, finish]
  | returns result =>
      cases result with
      | ok value => simp [Paced, finish]
      | error error =>
          dsimp only
          rcases s.policy.continueAfter attempt error with ⟨delay | error, policy⟩
          · dsimp only
            cases Backoff.jittered? delay c.jitterRatio (c.draw s.retries) with
            | none => simp [Paced]
            | some delay =>
                refine ⟨rfl, fun resume next hphase => ?_, by simp⟩
                simp only [Phase.pausing.injEq] at hphase
                rw [← hphase.1]
                exact Nat.le_trans (Nat.le_add_right _ _) (Clock.le_tick _)
          · simp [Paced]

@[simp] theorem settle_now (c : Conditions) (s : Session) (attempt : UInt32) (outcome : Outcome)
    (now : Nat) : (s.settle c attempt outcome now).now = now :=
  (settle_spec c s attempt outcome now).1

theorem outcome_of_endsAt {b : Behaviour} {now t : Nat} (h : b.endsAt now = some t) :
    b.outcome ≠ .hangs := by
  intro hhangs
  simp [Behaviour.endsAt, hhangs] at h

/-- Who is watched until the session is cancelled does not miss its end. -/
theorem step_attended (h : c.Cancels x) (hattended : s.phase ≠ .stalled) :
    (s.step c).phase ≠ .stalled := by
  cases hphase : s.phase with
  | stalled => exact absurd hphase hattended
  | done result => simp [step, hphase]
  | raised => simp [step, hphase]
  | pausing resume attempt =>
      obtain ⟨_, -, hpaused⟩ := step_paused c hphase
      generalize s.step c = after at hpaused ⊢
      cases hpaused with
      | ended _ => simp [finish]
      | cut _ _ => simp [finish]
      | watched hleaves => exact absurd h (hleaves x)
  | ready attempt =>
      obtain ⟨_, _, -, hmade⟩ := step_made c hphase
      generalize s.step c = after at hmade ⊢
      cases hmade with
      | refused _ => simp [finish]
      | immediate _ hends => exact (settle_spec c _ _ _ _).2.2 (outcome_of_endsAt hends)
      | ended _ hends _ _ => exact (settle_spec c _ _ _ _).2.2 (outcome_of_endsAt hends)
      | cut _ _ _ => simp [finish]
      | watched hleaves => exact absurd h (hleaves x)

theorem Made.times {wakes : List Nat} {new : List (Nat × Deed)} {after : Session}
    (h : Made c s attempt wakes new after) :
    ∀ entry ∈ new, entry.1 = s.now ∨ entry.1 = after.now := by
  cases h with
  | refused _ => simp
  | immediate _ _ => simp
  | ended _ _ _ _ => simp
  | cut _ _ _ => simp [finish]
  | watched _ => simp

/-! ## Up to the cancellation -/

/-- A session that goes on does not go back in time. -/
theorem step_goes (hpaced : s.Paced) (hgoes : (s.step c).isOver = false) :
    s.now ≤ (s.step c).now ∧ (s.step c).Paced := by
  cases hphase : s.phase with
  | stalled => simp [step, isOver, hphase] at hgoes
  | done result => simp [step, isOver, hphase] at hgoes
  | raised => simp [step, isOver, hphase] at hgoes
  | pausing resume attempt =>
      obtain ⟨_, -, hpaused⟩ := step_paused c hphase
      generalize s.step c = after at hpaused hgoes ⊢
      cases hpaused with
      | ended _ => exact ⟨hpaced resume attempt hphase, by simp [Paced, finish]⟩
      | cut _ _ => simp [isOver, finish] at hgoes
      | watched _ => simp [isOver, finish] at hgoes
  | ready attempt =>
      obtain ⟨_, _, -, hmade⟩ := step_made c hphase
      generalize s.step c = after at hmade hgoes ⊢
      cases hmade with
      | refused _ => simp [isOver, finish] at hgoes
      | immediate _ _ =>
          rw [settle_now]
          exact ⟨Nat.le_refl _, (settle_spec _ _ _ _ _).2.1⟩
      | ended _ _ hlater _ =>
          rw [settle_now]
          exact ⟨Nat.le_of_lt hlater, (settle_spec _ _ _ _ _).2.1⟩
      | cut _ _ _ => simp [isOver, finish] at hgoes
      | watched _ => simp [isOver, finish] at hgoes

/-- A step that is over before the cancellation is made as if nobody were to cancel. -/
theorem step_uncancelled (h : c.Cancels x) (hpaced : s.Paced)
    (hgoes : (s.step c.uncancelled).isOver = false) (hearly : (s.step c.uncancelled).now < x) :
    s.step c = s.step c.uncancelled := by
  have hcalm {now : Nat} (hearly : now < x) : c.isCancelled now ≠ true := by
    simp [h.isCancelled, hearly]
  have hnow := (step_goes hpaced hgoes).1
  cases hphase : s.phase with
  | stalled => simp [step, hphase]
  | done result => simp [step, hphase]
  | raised => simp [step, hphase]
  | pausing resume attempt =>
      obtain ⟨_, -, hfree⟩ := step_paused c.uncancelled hphase
      obtain ⟨_, -, hpaused⟩ := step_paused c hphase
      generalize s.step c.uncancelled = free at hfree hgoes hearly hnow ⊢
      generalize s.step c = after at hpaused ⊢
      cases hfree with
      | cut hcancelled _ => cases hcancelled
      | watched _ => simp [isOver, finish] at hgoes
      | ended _ =>
          cases hpaused with
          | ended _ => rfl
          | watched hleaves => exact absurd h (hleaves x)
          | cut hcancelled hlate =>
              rw [h.eq hcancelled] at hlate
              exact absurd hearly (Nat.not_lt.mpr hlate)
  | ready attempt =>
      obtain ⟨_, _, -, hfree⟩ := step_made c.uncancelled hphase
      obtain ⟨_, _, -, hmade⟩ := step_made c hphase
      generalize s.step c.uncancelled = free at hfree hgoes hearly hnow ⊢
      generalize s.step c = after at hmade ⊢
      have hbefore : s.now < x := Nat.lt_of_le_of_lt hnow hearly
      -- an attempt that ends before the cancellation does so in both
      have hsettled {t : Nat} (hends : (c.operation s.invoked.length).endsAt s.now = some t)
          (hearly : t < x) :
          after = s.invoking.settle c attempt (c.operation s.invoked.length).outcome t := by
        cases hmade with
        | refused hcancelled => exact absurd hcancelled (hcalm hbefore)
        | immediate _ hends' =>
            rw [Option.some.inj (hends.symm.trans hends')]
        | ended _ hends' _ _ =>
            rw [Option.some.inj (hends.symm.trans hends')]
        | watched hleaves => exact absurd h (hleaves x)
        | cut hcancelled _ hlate =>
            have hle := (hlate t hends).2
            rw [h.eq hcancelled] at hle
            exact absurd hearly (Nat.not_lt.mpr hle)
      cases hfree with
      | refused hcancelled => cases hcancelled
      | cut hcancelled _ _ => cases hcancelled
      | watched _ => simp [isOver, finish] at hgoes
      | immediate _ hends =>
          rw [settle_now] at hearly
          exact hsettled hends hearly
      | ended _ hends _ _ =>
          rw [settle_now] at hearly
          exact hsettled hends hearly

theorem run_succ (c : Conditions) (n : Nat) (s : Session) :
    run c (n + 1) s = (run c n s).step c := by
  rw [run_add]
  cases hover : (run c n s).isOver with
  | false => simp [run, hover]
  | true =>
      rw [run_of_isOver c hover]
      unfold isOver at hover
      unfold step
      cases hphase : (run c n s).phase <;> simp [hphase] at hover ⊢

theorem run_paced (hpaced : s.Paced) {n : Nat} (hgoes : (run c n s).isOver = false) :
    (run c n s).Paced := by
  induction n with
  | zero => exact hpaced
  | succ n ih =>
      have hbefore := ih (isOver_of_le _ (Nat.le_succ n) hgoes)
      rw [run_succ] at hgoes ⊢
      exact (step_goes hbefore hgoes).2

/-- So is a session up to there. -/
theorem run_uncancelled (h : c.Cancels x) (hpaced : s.Paced) {n : Nat}
    (hgoes : (run c.uncancelled n s).isOver = false) (hearly : (run c.uncancelled n s).now < x) :
    run c n s = run c.uncancelled n s := by
  induction n with
  | zero => rfl
  | succ n ih =>
      have hbefore := isOver_of_le _ (Nat.le_succ n) hgoes
      have hpaced' := run_paced hpaced hbefore
      rw [run_succ] at hgoes hearly
      have hnow := (step_goes hpaced' hgoes).1
      rw [run_succ, run_succ, ih hbefore (Nat.lt_of_le_of_lt hnow hearly)]
      exact step_uncancelled h hpaced' hgoes hearly

end Session

end Dialer.Retry
