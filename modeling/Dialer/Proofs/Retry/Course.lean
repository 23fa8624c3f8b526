import Dialer.Proofs.Retry.Decisions
import Dialer.Retry.Session

/-!
# The course of a retry session

A session that nobody cancels or leaves makes its attempts one after the other, each behind the
pause that follows the one before, and ends with the first attempt that stops. How many attempts
came before, which of them is made next, how many delays were drawn and what time it is go together
(`Session.Ready`), and each attempt that goes on carries all of it to the next
(`Session.Ready.step_of_goes`).

Where all waits are whole milliseconds no timer rounds, and an attempt begins at the sum of the
waits before it (`Session.startsAt`). A wait is cut to thirty years of 365 days (`Clock.cut`).
-/

namespace Dialer

/-- How long a wait of a given length lasts. -/
def Clock.cut (d : Duration) : Nat :=
  min d.toNanos longestPause

/-- Nothing is left of the span beside whole milliseconds. -/
def Duration.WholeMillis (d : Duration) : Prop :=
  1_000_000 ∣ d.toNanos

theorem Duration.whole_ofMillis64 (ms : UInt64) : (ofMillis64 ms).WholeMillis := by
  unfold WholeMillis ofMillis64
  rw [toNanos_ofMillis]
  exact Nat.dvd_mul_left _ _

theorem Duration.WholeMillis.dvd_cut {d : Duration} (h : d.WholeMillis) :
    1_000_000 ∣ Clock.cut d := by
  unfold Clock.cut
  rcases Nat.le_total d.toNanos Clock.longestPause with hle | hle
  · rw [Nat.min_eq_left hle]
    exact h
  · rw [Nat.min_eq_right hle]
    decide

theorem RetryPolicy.delayAt_whole {p : RetryPolicy} (hbase : p.backoff.base.WholeMillis)
    (hmax : p.backoff.max.WholeMillis) (k : Nat) : (p.delayAt k).WholeMillis := by
  unfold delayAt Backoff.delayAt
  split
  · rename_i hlt
    have hsmall : (UInt32.ofNat k).toNat < 32 := by
      rw [UInt32.toNat_ofNat_of_lt' (show k < 2 ^ 32 by omega)]
      exact hlt
    unfold Duration.WholeMillis
    rw [Backoff.toNanos_delay hsmall]
    rcases Nat.le_total (p.backoff.base.toNanos * (1 <<< (UInt32.ofNat k).toNat))
      p.backoff.max.toNanos with hle | hle
    · rw [Nat.min_eq_left hle]
      exact Nat.dvd_mul_right_of_dvd hbase _
    · rw [Nat.min_eq_right hle]
      exact hmax
  · exact hmax

theorem Clock.wake_whole {now : Nat} {d : Duration} (hnow : 1_000_000 ∣ now) (h : d.WholeMillis) :
    wake now d = now + cut d := by
  obtain ⟨ms, hms⟩ := Nat.dvd_add hnow h.dvd_cut
  have hdue : now + cut d = ofMillis ms := by rw [hms, ofMillis, Nat.mul_comm]
  show tick (now + cut d) = now + cut d
  rw [hdue, tick_ofMillis]

theorem Behaviour.endsAt_whole {now : Nat} {d : Duration} (hnow : 1_000_000 ∣ now)
    (h : d.WholeMillis) (result : CallResult) :
    (Behaviour.mk d (.returns result)).endsAt now = some (now + Clock.cut d) := by
  show some (if d.isZero then now else Clock.wake now d) = _
  rw [Clock.wake_whole hnow h]
  split
  · rename_i hzero
    have hcut : Clock.cut d = 0 := by simp [Clock.cut, Duration.isZero_iff.mp hzero]
    rw [hcut, Nat.add_zero]
  · rfl

namespace Retry

/-- What a session runs under if nothing comes from outside: each attempt takes a while and ends
with a result. -/
def Conditions.undisturbed (results : Nat → CallResult) (durations : Nat → Duration)
    (draw : Nat → Float) : Conditions :=
  ⟨fun k => ⟨durations k, .returns (results k)⟩, 0.0, draw, none, none⟩

namespace Session

theorem run_of_isOver (c : Conditions) {s : Session} (h : s.isOver = true) (steps : Nat) :
    run c steps s = s := by
  cases steps with
  | zero => rfl
  | succ steps => exact if_pos h

theorem run_add (c : Conditions) (m n : Nat) (s : Session) :
    run c (m + n) s = run c n (run c m s) := by
  induction m generalizing s with
  | zero => rw [Nat.zero_add]; rfl
  | succ m ih =>
      by_cases hover : s.isOver = true
      · rw [run_of_isOver c hover, run_of_isOver c hover, run_of_isOver c hover]
      · rw [Nat.succ_add, run, run, if_neg hover, if_neg hover]
        exact ih (s.step c)

/-- A session that goes on has gone on all the time. -/
theorem isOver_of_le (c : Conditions) {m n : Nat} (h : m ≤ n) {s : Session}
    (hgoes : (run c n s).isOver = false) : (run c m s).isOver = false := by
  obtain ⟨later, rfl⟩ := Nat.exists_eq_add_of_le h
  rw [run_add] at hgoes
  refine Bool.eq_false_iff.mpr fun hover => ?_
  rw [run_of_isOver c hover, hover] at hgoes
  cases hgoes

section

variable (p : RetryPolicy) (durations : Nat → Duration) (begin : Nat)

/-- When the attempt of a number is made: all attempts before it have taken their time, and each
was followed by its pause. -/
def startsAt : Nat → Nat
  | 0 => begin
  | k + 1 => startsAt k + Clock.cut (durations k) + Clock.cut (p.delayAt k)

theorem startsAt_succ (k : Nat) : startsAt p durations begin (k + 1) =
    startsAt p durations begin k + Clock.cut (durations k) + Clock.cut (p.delayAt k) := rfl

/-- A session about to make the attempt of a number. -/
structure Ready (k : Nat) (s : Session) : Prop where
  now : s.now = startsAt p durations begin k
  phase : ∃ number, s.phase = .ready number ∧ p.Numbers k number
  invoked : s.invoked.reverse = (List.range k).map (startsAt p durations begin)
  retries : s.retries = k
  policy : p.Used k s.policy

end

variable {p : RetryPolicy} {results : Nat → CallResult} {durations : Nat → Duration}
  {draw : Nat → Float} {begin k : Nat} {s : Session}

theorem startsAt_whole (hbegin : 1_000_000 ∣ begin) (hdurations : ∀ k, (durations k).WholeMillis)
    (hdelays : ∀ k, (p.delayAt k).WholeMillis) (k : Nat) :
    1_000_000 ∣ startsAt p durations begin k := by
  induction k with
  | zero => exact hbegin
  | succ k ih =>
      rw [startsAt_succ]
      exact Nat.dvd_add (Nat.dvd_add ih (hdurations k).dvd_cut) (hdelays k).dvd_cut

theorem ready_start (p : RetryPolicy) (durations : Nat → Duration) (begin : Nat) :
    Ready p durations begin 0 (.start p begin) := by
  refine ⟨rfl, ⟨1, rfl, rfl, ?_⟩, rfl, rfl, p.used_fresh⟩
  omega

theorem Ready.length_invoked (h : Ready p durations begin k s) : s.invoked.length = k := by
  have hlength := congrArg List.length h.invoked
  simpa using hlength

theorem Ready.not_isOver (h : Ready p durations begin k s) : s.isOver = false := by
  obtain ⟨number, hphase, -⟩ := h.phase
  simp [isOver, hphase]

theorem Ready.step_eq (h : Ready p durations begin k s)
    (hwhole : 1_000_000 ∣ startsAt p durations begin k) (hduration : (durations k).WholeMillis)
    {number : UInt32} (hphase : s.phase = .ready number) :
    let c := Conditions.undisturbed results durations draw
    s.step c = { s with invoked := s.now :: s.invoked }.settle c number (.returns (results k))
      (startsAt p durations begin k + Clock.cut (durations k)) := by
  intro c
  have hends := Behaviour.endsAt_whole hwhole hduration (results k)
  have hbehaviour : c.operation s.invoked.length = ⟨durations k, .returns (results k)⟩ := by
    rw [h.length_invoked]
    rfl
  have hcalm : ¬ c.isCancelled (startsAt p durations begin k) = true := Bool.false_ne_true
  have hstep : s.step c = s.attempt c number := by
    unfold step
    rw [hphase]
  rw [hstep]
  unfold Session.attempt
  dsimp only
  rw [hbehaviour, h.now, hends, if_neg hcalm]
  -- an attempt that takes no time is settled at once, and any other at its end
  by_cases hnone : Clock.cut (durations k) = 0
  · rw [hnone, Nat.add_zero, if_pos rfl]
  · have hlater : some (startsAt p durations begin k + Clock.cut (durations k)) ≠
        some (startsAt p durations begin k) := by
      intro hsame
      have := Option.some.inj hsame
      omega
    rw [if_neg hlater]
    rfl

theorem settle_of_stops {number : UInt32} (hused : p.Used k s.policy)
    (hnumber : p.Numbers k number) {result : CallResult} (hstops : p.Stops k result)
    (c : Conditions) (now : Nat) :
    ∃ after, s.settle c number (.returns result) now =
      { s with now, policy := after, phase := .done (p.verdict k result) } := by
  cases result with
  | ok value => exact ⟨s.policy, rfl⟩
  | error error =>
      obtain ⟨last, after, hcontinue, hverdict⟩ := hused.continueAfter_of_stops hnumber hstops
      refine ⟨after, ?_⟩
      unfold settle
      dsimp only
      rw [hcontinue, hverdict]

theorem settle_of_goes {number : UInt32} (hused : p.Used k s.policy)
    (hnumber : p.Numbers k number) {result : CallResult} (hgoes : ¬ p.Stops k result)
    {c : Conditions} (hjitter : c.jitterRatio = 0.0) (now : Nat) :
    p.Numbers (k + 1) (number + 1) ∧ ∃ after, p.Used (k + 1) after ∧
      s.settle c number (.returns result) now =
        { s with
          now
          policy := after
          phase := .pausing (Clock.wake now (p.delayAt k)) (number + 1)
          retries := s.retries + 1 } := by
  cases result with
  | ok value => exact absurd trivial hgoes
  | error error =>
      obtain ⟨after, hcontinue, hafter⟩ := hused.continueAfter_of_goes hnumber hgoes
      have hdelay (drawn : Float) : Backoff.jittered? (p.delayAt k) c.jitterRatio drawn =
          some (p.delayAt k) :=
        Backoff.jittered?_of_nonpos (by rw [hjitter]; decide) _ _
      refine ⟨hnumber.next hgoes, after, hafter, ?_⟩
      unfold settle
      dsimp only
      rw [hcontinue]
      dsimp only
      rw [hdelay]

theorem Ready.invoked_next (h : Ready p durations begin k s) :
    (s.now :: s.invoked).reverse = (List.range (k + 1)).map (startsAt p durations begin) := by
  rw [List.reverse_cons, h.invoked, h.now, List.range_succ, List.map_append]
  rfl

variable (draw) in
theorem Ready.step_of_stops (h : Ready p durations begin k s)
    (hwhole : 1_000_000 ∣ startsAt p durations begin k) (hduration : (durations k).WholeMillis)
    (hstops : p.Stops k (results k)) :
    let s' := s.step (.undisturbed results durations draw)
    s'.phase = .done (p.verdict k (results k)) ∧
      s'.invoked.reverse = (List.range (k + 1)).map (startsAt p durations begin) ∧
      s'.retries = k ∧ s'.now = startsAt p durations begin k + Clock.cut (durations k) := by
  obtain ⟨number, hphase, hnumber⟩ := h.phase
  obtain ⟨after, hsettle⟩ := settle_of_stops (s := { s with invoked := s.now :: s.invoked })
    h.policy hnumber hstops (.undisturbed results durations draw)
    (startsAt p durations begin k + Clock.cut (durations k))
  dsimp only
  rw [h.step_eq hwhole hduration hphase, hsettle]
  exact ⟨rfl, h.invoked_next, h.retries, rfl⟩

variable (draw) in
/-- An attempt that goes on is followed by its pause, and that by the next attempt. -/
theorem Ready.step_of_goes (h : Ready p durations begin k s)
    (hwhole : 1_000_000 ∣ startsAt p durations begin k) (hduration : (durations k).WholeMillis)
    (hdelay : (p.delayAt k).WholeMillis) (hgoes : ¬ p.Stops k (results k)) :
    let c := Conditions.undisturbed results durations draw
    (s.step c).isOver = false ∧ Ready p durations begin (k + 1) ((s.step c).step c) := by
  obtain ⟨number, hphase, hnumber⟩ := h.phase
  intro c
  obtain ⟨hnext, after, hafter, hsettle⟩ := settle_of_goes
    (s := { s with invoked := s.now :: s.invoked }) (c := c) h.policy hnumber hgoes rfl
    (startsAt p durations begin k + Clock.cut (durations k))
  have hends : 1_000_000 ∣ startsAt p durations begin k + Clock.cut (durations k) :=
    Nat.dvd_add hwhole hduration.dvd_cut
  rw [Clock.wake_whole hends hdelay, ← startsAt_succ] at hsettle
  rw [h.step_eq hwhole hduration hphase, hsettle]
  refine ⟨rfl, rfl, ⟨number + 1, rfl, hnext⟩, h.invoked_next, ?_, hafter⟩
  show s.retries + 1 = k + 1
  rw [h.retries]

theorem ready_run (hbegin : 1_000_000 ∣ begin) (hdurations : ∀ k, (durations k).WholeMillis)
    (hdelays : ∀ k, (p.delayAt k).WholeMillis) {n : Nat}
    (hgoes : ∀ k < n, ¬ p.Stops k (results k)) :
    Ready p durations begin n
      (run (.undisturbed results durations draw) (2 * n) (.start p begin)) := by
  -- two steps take a session from one attempt to the next: the attempt itself and its pause
  induction n with
  | zero => exact ready_start p durations begin
  | succ n ih =>
      have hready := ih fun k hk => hgoes k (Nat.lt_succ_of_lt hk)
      obtain ⟨hpausing, hnext⟩ := hready.step_of_goes draw
        (startsAt_whole hbegin hdurations hdelays n) (hdurations n) (hdelays n)
        (hgoes n (Nat.lt_succ_self n))
      rw [Nat.mul_succ, run_add, run, if_neg (by simp [hready.not_isOver]), run,
        if_neg (by simp [hpausing])]
      exact hnext

/-- Three attempts, a tenth of a second and more apart. -/
def patient : RetryPolicy :=
  ⟨⟨.ofMillis64 100, .ofMillis64 1000, 0⟩, 3, false⟩

end Session

end Retry

end Dialer
