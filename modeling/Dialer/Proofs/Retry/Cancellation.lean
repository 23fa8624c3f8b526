import Dialer.Proofs.Retry.Waits

/-!
# A retry session that is cancelled

A session looks at its token before all else. Whatever it waits for, and however often it has been
polled, the first look at a cancelled token ends it: the future it holds is dropped without being
polled again (`Future.polled_cancelled`). In time, it ends at the instant of the cancellation if it
waits then (`Session.WaitsAt`), also if what it waits for comes at that very instant.

What a session does with the futures of its attempts is read off the session as it is polled, and
this is the session in steps, as long as its observer is there (`Future.step_spec`).
-/

namespace Dialer.Retry

variable {c : Conditions} {x : Nat}

namespace Session

variable {s : Session} {attempt : UInt32}

/-! ## The cancellation -/

/-- At an instant the session waits for the end of an attempt or of a pause, which comes then or
later. -/
def WaitsAt (c : Conditions) (s : Session) (x : Nat) : Prop :=
  s.now < x ∧ match s.phase with
    | .ready _ => ∀ t ∈ (c.operation s.invoked.length).endsAt s.now, x ≤ t
    | .pausing resume _ => x ≤ resume
    | _ => False

/-- The session with the attempt that it waits for, if that is what it waits for. -/
def waiting (s : Session) : Session :=
  match s.phase with
  | .ready _ => s.invoking
  | _ => s

/-- What it does with the future of this attempt if it is cut short. -/
def cutShort (s : Session) (x : Nat) : List (Nat × Deed) :=
  match s.phase with
  | .ready _ =>
    [(x, .drops s.invoked.length), (s.now, .polls s.invoked.length),
      (s.now, .invokes s.invoked.length)]
  | _ => []

theorem WaitsAt.not_isOver (h : s.WaitsAt c x) : s.isOver = false := by
  have hwaits := h.2
  unfold isOver
  cases hphase : s.phase <;> simp [hphase] at hwaits ⊢

theorem Made.of_waiting (h : c.Cancels x) (hearly : s.now < x)
    (hlate : ∀ t ∈ (c.operation s.invoked.length).endsAt s.now, x ≤ t) {wakes : List Nat}
    {new : List (Nat × Deed)} {after : Session} (hmade : Made c s attempt wakes new after) :
    after = s.invoking.finish (.done (.error .cancelled)) x ∧
      new = [(x, .drops s.invoked.length), (s.now, .polls s.invoked.length),
        (s.now, .invokes s.invoked.length)] := by
  cases hmade with
  | refused hcancelled =>
      rw [h.isCancelled] at hcancelled
      exact absurd hearly (Nat.not_lt.mpr (of_decide_eq_true hcancelled))
  | immediate _ hends => exact absurd hearly (Nat.not_lt.mpr (hlate s.now hends))
  | ended _ hends _ hend =>
      rw [h.isCancelled] at hend
      exact absurd (hlate _ hends) (of_decide_eq_false hend)
  | cut hcancelled _ _ =>
      rw [h.eq hcancelled]
      exact ⟨rfl, rfl⟩
  | watched hleaves => exact absurd h (hleaves x)

/-- A session that waits ends with the cancellation. -/
theorem step_waiting (h : c.Cancels x) (hwaits : s.WaitsAt c x) :
    s.step c = s.waiting.finish (.done (.error .cancelled)) x := by
  obtain ⟨hearly, hwaits⟩ := hwaits
  unfold waiting
  cases hphase : s.phase with
  | done _ => simp [hphase] at hwaits
  | raised => simp [hphase] at hwaits
  | stalled => simp [hphase] at hwaits
  | ready attempt =>
      simp only [hphase] at hwaits
      obtain ⟨_, _, -, hmade⟩ := step_made c hphase
      exact (hmade.of_waiting h hearly hwaits).1
  | pausing resume attempt =>
      simp only [hphase] at hwaits
      obtain ⟨_, -, hpaused⟩ := step_paused c hphase
      generalize s.step c = after at hpaused ⊢
      cases hpaused with
      | ended hcalm =>
          rw [h.isCancelled] at hcalm
          exact absurd hwaits (of_decide_eq_false hcalm)
      | cut hcancelled _ => rw [h.eq hcancelled, Nat.max_eq_right (Nat.le_of_lt hearly)]
      | watched hleaves => exact absurd h (hleaves x)

end Session

/-! ## One look -/

namespace Future

variable {f : Future} {h : Held} {now : Nat}

theorem ready?_of_le {operation : Operation} {time : Nat}
    (hends : (operation h.index).endsAt h.since = some time) (hle : time ≤ now) :
    h.ready? operation now = some (operation h.index).outcome := by
  unfold Held.ready?
  rw [hends]
  exact if_pos hle

theorem ready?_of_lt {operation : Operation}
    (hlater : ∀ time ∈ (operation h.index).endsAt h.since, now < time) :
    h.ready? operation now = none := by
  unfold Held.ready?
  cases hends : (operation h.index).endsAt h.since with
  | none => rfl
  | some time => exact if_neg (Nat.not_le.mpr (hlater time hends))

theorem await_cancelled (c : Conditions) (f : Future) (h : Held) (now : Nat) :
    f.await c h now true = ⟨f.session.finish (.done (.error .cancelled)) now, none,
      (now, .drops h.index) :: f.deeds⟩ :=
  rfl

theorem await_ready {outcome : Outcome} (hready : h.ready? c.operation now = some outcome) :
    f.await c h now false =
      ⟨f.session.settle c h.attempt outcome now, none, (now, .polls h.index) :: f.deeds⟩ := by
  simp [await, hready]

theorem await_pending (hpending : h.ready? c.operation now = none) :
    f.await c h now false = ⟨f.session, some h, (now, .polls h.index) :: f.deeds⟩ := by
  simp [await, hpending]

/-- It waits: for an attempt that it holds, or for the end of a pause. -/
def Waits (f : Future) : Prop :=
  f.held ≠ none ∨ ∃ resume attempt, f.session.phase = .pausing resume attempt

/-- What becomes of an attempt that is held as its session ends. -/
def drops (f : Future) (now : Nat) : List (Nat × Deed) :=
  (f.held.map fun h => (now, Deed.drops h.index)).toList

/-- One look at a cancelled token ends it. -/
theorem advance_cancelled (c : Conditions) (hwaits : f.Waits) (now : Nat) :
    f.advance c now true =
      ⟨f.session.finish (.done (.error .cancelled)) now, none, f.drops now ++ f.deeds⟩ := by
  unfold advance drops
  cases hheld : f.held with
  | some h => exact await_cancelled c f h now
  | none =>
      rcases hwaits with hheld' | ⟨resume, attempt, hphase⟩
      · exact absurd hheld hheld'
      · simp [hphase]

/-- What is over stays as it is, however it is polled. -/
theorem polled_of_isOver (c : Conditions) (hheld : f.held = none)
    (hover : f.session.isOver = true) (polls : List (Nat × Bool)) : f.polled c polls = f := by
  induction polls with
  | nil => rfl
  | cons poll rest ih =>
      have hsame : f.advance c poll.1 poll.2 = f := by
        unfold advance
        rw [hheld]
        unfold Session.isOver at hover
        cases hphase : f.session.phase <;> simp [hphase] at hover ⊢
      show (f.advance c poll.1 poll.2).polled c rest = f
      rw [hsame]
      exact ih

/-- The first look at a cancelled token is the last thing that happens. -/
theorem polled_cancelled (c : Conditions) (hwaits : f.Waits) (now : Nat)
    (later : List (Nat × Bool)) :
    f.polled c ((now, true) :: later) =
      ⟨f.session.finish (.done (.error .cancelled)) now, none, f.drops now ++ f.deeds⟩ := by
  show (f.advance c now true).polled c later = _
  rw [advance_cancelled c hwaits now]
  exact polled_of_isOver c rfl rfl later

end Future

/-! ## A session as it is polled -/

namespace Future

variable {f : Future}

theorem step_of_ready {s : Session} {attempt : UInt32} (hphase : s.phase = .ready attempt)
    (deeds : List (Nat × Deed)) (hattended : (s.step c).phase ≠ .stalled) :
    ∃ new, Session.Made c s attempt (s.wakes c) new (s.step c) ∧
      Future.step c ⟨s, none, deeds⟩ = ⟨s.step c, none, new ++ deeds⟩ := by
  let made : Future := ⟨s.invoking, none, (s.now, .invokes s.invoked.length) :: deeds⟩
  let held : Held := ⟨attempt, s.invoked.length, s.now⟩
  have hfirst (cancelled : Bool) : Future.advance c ⟨s, none, deeds⟩ s.now cancelled =
      made.await c held s.now cancelled := by
    simp [advance, hphase, make, made, held, Session.invoking]
  -- if the attempt is pending, it is held until the next look
  have hsecond (hpending : held.ready? c.operation s.now = none) (now : Nat) (cancelled : Bool) :
      (Future.advance c ⟨s, none, deeds⟩ s.now false).advance c now cancelled =
        Future.await c ⟨s.invoking, some held, (s.now, .polls held.index) :: made.deeds⟩ held now
          cancelled := by
    rw [hfirst, await_pending hpending]
    rfl
  obtain ⟨wakes, new, hwakes, hmade⟩ := Session.step_made c hphase
  refine ⟨new, hwakes ▸ hmade, ?_⟩
  unfold Future.step
  dsimp only
  rw [hwakes]
  generalize s.step c = after at hmade hattended ⊢
  cases hmade with
  | watched => exact absurd rfl hattended
  | refused hcancelled =>
      have hlook : Future.polled c ⟨s, none, deeds⟩ [(s.now, true)] = _ := hfirst true
      simp only [List.map_cons, List.map_nil, hcancelled, hlook, await_cancelled]
      rfl
  | immediate hcalm hends =>
      have hready := ready?_of_le (h := held) hends (Nat.le_refl s.now)
      have hlook : Future.polled c ⟨s, none, deeds⟩ [(s.now, false)] = _ := hfirst false
      simp only [List.map_cons, List.map_nil, hcalm, hlook, await_ready hready]
      rfl
  | @ended t hcalm hends hlater hend =>
      have hpending : held.ready? c.operation s.now = none := by
        refine ready?_of_lt fun time htime => ?_
        obtain rfl := Option.some.inj (hends.symm.trans htime)
        exact hlater
      have hready := ready?_of_le (h := held) hends (Nat.le_refl t)
      have hlook : Future.polled c ⟨s, none, deeds⟩ [(s.now, false), (t, false)] = _ :=
        hsecond hpending t false
      simp only [List.map_cons, List.map_nil, hcalm, hend, hlook, await_ready hready]
      rfl
  | @cut x hcancelled hearly hlate =>
      have hpending : held.ready? c.operation s.now = none :=
        ready?_of_lt fun time htime => (hlate time htime).1
      have hcalm : c.isCancelled s.now = false := by
        simp [Conditions.isCancelled, hcancelled, hearly]
      have hend : c.isCancelled x = true := by simp [Conditions.isCancelled, hcancelled]
      have hlook : Future.polled c ⟨s, none, deeds⟩ [(s.now, false), (x, true)] = _ :=
        hsecond hpending x true
      simp only [List.map_cons, List.map_nil, hcalm, hend, hlook, await_cancelled]
      rfl

theorem step_of_pausing {s : Session} {resume : Nat} {attempt : UInt32}
    (hphase : s.phase = .pausing resume attempt) (deeds : List (Nat × Deed))
    (hattended : (s.step c).phase ≠ .stalled) :
    Future.step c ⟨s, none, deeds⟩ = ⟨s.step c, none, deeds⟩ := by
  obtain ⟨wakes, hwakes, hpaused⟩ := Session.step_paused c hphase
  unfold Future.step
  dsimp only
  rw [hwakes]
  generalize s.step c = after at hpaused hattended ⊢
  cases hpaused with
  | watched => exact absurd rfl hattended
  | ended hcalm => simp [polled, advance, hphase, hcalm]
  | @cut x hcancelled _ =>
      have hend : c.isCancelled (max s.now x) = true := by
        simp only [Conditions.isCancelled, hcancelled]
        exact decide_eq_true (Nat.le_max_right s.now x)
      simp [polled, advance, hphase, hend]

/-- While the observer is there, the session in steps is the session that is polled at the instants
at which it is woken. It does something with a future only in a step that makes an attempt. -/
theorem step_spec (hheld : f.held = none) (hattended : (f.session.step c).phase ≠ .stalled) :
    ∃ new, f.step c = ⟨f.session.step c, none, new ++ f.deeds⟩ ∧
      ((new = [] ∧ ∀ attempt, f.session.phase ≠ .ready attempt) ∨
        ∃ attempt, f.session.phase = .ready attempt ∧
          f.session.Made c attempt (f.session.wakes c) new (f.session.step c)) := by
  obtain ⟨s, held, deeds⟩ := f
  obtain rfl : held = none := hheld
  cases hphase : s.phase with
  | ready attempt =>
      obtain ⟨new, hmade, hstep⟩ := step_of_ready hphase deeds hattended
      exact ⟨new, hstep, .inr ⟨attempt, rfl, hmade⟩⟩
  | pausing resume attempt =>
      exact ⟨[], step_of_pausing hphase deeds hattended, .inl ⟨rfl, by simp⟩⟩
  | _ =>
      -- what is over is not woken
      have hsame : s.step c = s := by simp [Session.step, hphase]
      refine ⟨[], ?_, .inl ⟨rfl, by simp⟩⟩
      simp [step, Session.wakes, hphase, polled, hsame]

theorem run_succ (c : Conditions) (n : Nat) (f : Future) :
    run c (n + 1) f =
      if (run c n f).session.isOver then run c n f else (run c n f).step c := by
  induction n generalizing f with
  | zero => rfl
  | succ n ih =>
      cases hover : f.session.isOver with
      | true => simp [run, hover]
      | false =>
          have hfirst (m : Nat) : run c (m + 1) f = run c m (f.step c) := by simp [run, hover]
          rw [hfirst (n + 1), hfirst n]
          exact ih (f.step c)

/-- A session that is watched until it is cancelled, as it is polled. -/
structure Runs (c : Conditions) (s : Session) (f : Future) : Prop where
  session : f.session = s
  held : f.held = none
  attended : s.phase ≠ .stalled

theorem Runs.step {s : Session} (h : Runs c s f) (hcancels : c.Cancels x) :
    Runs c (s.step c) (f.step c) := by
  have hattended := Session.step_attended hcancels h.attended
  have hsession := h.session
  subst hsession
  obtain ⟨new, hstep, _⟩ := step_spec h.held hattended
  rw [hstep]
  exact ⟨rfl, rfl, hattended⟩

theorem runs_run (policy : RetryPolicy) (begin : Nat) (hcancels : c.Cancels x) (n : Nat) :
    Runs c (Session.run c n (.startWith policy begin)) (run c n (.startWith policy begin)) := by
  induction n with
  | zero => exact ⟨rfl, rfl, by simp [Session.run, Session.startWith]⟩
  | succ n ih =>
      have hstep := ih.step hcancels
      rw [Session.run_succ, run_succ]
      split
      · -- what is over makes no step
        rename_i hover
        rw [ih.session] at hover
        rw [← Session.run_succ, Session.run_add, Session.run_of_isOver c hover]
        exact ih
      · exact hstep

/-- What has been done lies in the past. -/
theorem run_deeds (policy : RetryPolicy) (begin : Nat) (hcancels : c.Cancels x) {n : Nat}
    (hgoes : (Session.run c n (.startWith policy begin)).isOver = false) :
    ∀ entry ∈ (run c n (.startWith policy begin)).deeds,
      entry.1 ≤ (Session.run c n (.startWith policy begin)).now := by
  induction n with
  | zero => simp [run, startWith]
  | succ n ih =>
      have hbefore := Session.isOver_of_le _ (Nat.le_succ n) hgoes
      have hruns := runs_run policy begin hcancels n
      have hruns' := runs_run policy begin hcancels (n + 1)
      have hpaced := Session.run_paced (by simp [Session.Paced, Session.startWith]) hbefore
      have hpast := ih hbefore
      rw [Session.run_succ] at hgoes hruns' ⊢
      have hnow := (Session.step_goes hpaced hgoes).1
      rw [run_succ, hruns.session, if_neg (by simp [hbefore])]
      generalize run c n (.startWith policy begin) = f at hruns hpast ⊢
      generalize Session.run c n (.startWith policy begin) = s at hruns hpast hgoes hnow hruns' ⊢
      obtain ⟨rfl, hheld, _⟩ := hruns
      obtain ⟨new, hstep, hnew⟩ := step_spec hheld hruns'.attended
      rw [hstep]
      intro entry hentry
      rcases List.mem_append.mp hentry with hmem | hmem
      · rcases hnew with ⟨rfl, _⟩ | ⟨attempt, _, hmade⟩
        · exact absurd hmem List.not_mem_nil
        · rcases hmade.times entry hmem with htime | htime
          · exact htime ▸ hnow
          · exact Nat.le_of_eq htime
      · exact Nat.le_trans (hpast entry hmem) hnow

/-- What a session does with its futures as it is cancelled while it waits. -/
theorem step_of_waiting (hheld : f.held = none) (hcancels : c.Cancels x)
    (hwaits : f.session.WaitsAt c x) :
    f.step c = ⟨f.session.waiting.finish (.done (.error .cancelled)) x, none,
      f.session.cutShort x ++ f.deeds⟩ := by
  have hend := Session.step_waiting hcancels hwaits
  obtain ⟨new, hstep, hnew⟩ := step_spec hheld (by rw [hend]; simp [Session.finish])
  obtain ⟨hearly, hwaits⟩ := hwaits
  have hdeeds : new = f.session.cutShort x := by
    unfold Session.cutShort
    rcases hnew with ⟨rfl, hother⟩ | ⟨attempt, hphase, hmade⟩
    · cases hphase : f.session.phase with
      | ready attempt => exact absurd hphase (hother attempt)
      | _ => rfl
    · simp only [hphase] at hwaits ⊢
      exact (hmade.of_waiting hcancels hearly hwaits).2
  rw [hstep, hend, hdeeds]

end Future

namespace Session

/-- **A cancelled session ends at once and polls nothing more.** A session that is polled at the
instants at which it is woken is the session in steps, whatever its policy has been used for
before.

* If it has been cancelled before it begins, it ends where it begins: the operation is invoked once,
  and its future is dropped without having been polled.
* If it is cancelled while it waits for an attempt or for the end of a pause, even if this comes at
  that very instant, it has gone on so far as if nobody were to cancel it, and ends at that instant.
  No retry is scheduled and the operation is not invoked any more; the attempt it was waiting for is
  dropped, and no future is polled from that instant on.
* This does not depend on when it is polled: whatever it waits for, and whatever has been polled,
  the first look at a cancelled token is the last thing that happens. -/
theorem cancelled_session (policy : RetryPolicy) (c : Conditions) (begin x : Nat)
    (hcancels : c.Cancels x) :
    let future (steps : Nat) := Future.run c steps (.startWith policy begin)
    let session (steps : Nat) := run c steps (.startWith policy begin)
    (∀ steps, (future steps).session = session steps) ∧
      (x ≤ begin → ∀ steps, 0 < steps →
        session steps = ⟨begin, policy, .done (.error .cancelled), [begin], 0⟩ ∧
          (future steps).deeds = [(begin, .drops 0), (begin, .invokes 0)]) ∧
      (∀ n, let s := run c.uncancelled n (.startWith policy begin)
        s.WaitsAt c x → ∀ steps, n < steps →
          session n = s ∧ session steps = s.waiting.finish (.done (.error .cancelled)) x ∧
            (future steps).deeds = s.cutShort x ++ (future n).deeds ∧
            ∀ entry ∈ (future n).deeds, entry.1 < x) ∧
      ∀ f : Future, f.Waits → ∀ now later,
        f.polled c ((now, true) :: later) =
          ⟨f.session.finish (.done (.error .cancelled)) now, none, f.drops now ++ f.deeds⟩ := by
  intro future session
  have hruns (n : Nat) := Future.runs_run policy begin hcancels n
  -- steps behind the end change nothing
  have hlater {n : Nat} {last : Future} (hlast : future (n + 1) = last)
      (hend : last.session.isOver = true) {steps : Nat} (hsteps : n < steps) :
      future steps = last ∧ session steps = last.session := by
    obtain ⟨more, rfl⟩ := Nat.exists_eq_add_of_le (Nat.succ_le_of_lt hsteps)
    have hsame : future (n + 1 + more) = last := by
      induction more with
      | zero => exact hlast
      | succ more ih =>
          show Future.run c (n + 1 + more + 1) _ = last
          rw [Future.run_succ, show Future.run c (n + 1 + more) _ = last from ih (by omega),
            if_pos hend]
    exact ⟨hsame, by rw [← hsame]; exact (hruns _).session.symm⟩
  refine ⟨fun steps => (hruns steps).session, fun hbegin steps hsteps => ?_,
    fun n hwaits steps hsteps => ?_, fun f hwaits now later => ?_⟩
  · have hcancelled : c.isCancelled begin = true := by simp [hcancels.isCancelled, hbegin]
    have hfirst : future 1 = ⟨⟨begin, policy, .done (.error .cancelled), [begin], 0⟩, none,
        [(begin, .drops 0), (begin, .invokes 0)]⟩ := by
      simp [future, Future.run, Future.startWith, startWith, isOver, Future.step, wakes, hcancelled,
        Future.polled, Future.advance, Future.make, Future.await, finish]
    obtain ⟨hfuture, hsession⟩ := hlater hfirst rfl hsteps
    rw [hfuture, hsession]
    exact ⟨rfl, rfl⟩
  · have hsame : session n = run c.uncancelled n (.startWith policy begin) :=
      run_uncancelled hcancels (by simp [Paced, startWith]) hwaits.not_isOver hwaits.1
    rw [← hsame] at hwaits ⊢
    have hgoes := hwaits.not_isOver
    have hpast (entry) (hentry : entry ∈ (future n).deeds) : entry.1 < x :=
      Nat.lt_of_le_of_lt (Future.run_deeds policy begin hcancels hgoes entry hentry) hwaits.1
    have hsession : (future n).session = session n := (hruns n).session
    have hstep := Future.step_of_waiting (hruns n).held hcancels (hsession ▸ hwaits)
    rw [show (Future.run c n (.startWith policy begin)).session = session n from hsession] at hstep
    have hlast : future (n + 1) =
        ⟨(session n).waiting.finish (.done (.error .cancelled)) x, none,
          (session n).cutShort x ++ (future n).deeds⟩ := by
      show Future.run c (n + 1) _ = _
      rw [Future.run_succ, if_neg, hstep]
      rw [show (Future.run c n (.startWith policy begin)).session = session n from hsession, hgoes]
      exact Bool.false_ne_true
    obtain ⟨hfuture, hend⟩ := hlater hlast rfl hsteps
    rw [hfuture, hend]
    exact ⟨rfl, rfl, rfl, hpast⟩
  · exact Future.polled_cancelled c hwaits now later

/-- A session whose attempts take five milliseconds and fail, cancelled at an instant. -/
def failing (x : Nat) : Conditions :=
  { Conditions.undisturbed (fun _ => .error (.failed "unavailable")) (fun _ => .ofMillis64 5)
      fun _ => 0.0 with cancelledAt := some x }

theorem failing_cancels (x : Nat) : (failing x).Cancels x :=
  ⟨rfl, by simp [failing, Conditions.undisturbed]⟩

/-- Nobody cancelling, the first pause ends a tenth of a second behind the first attempt. -/
theorem failing_pauses (x : Nat) :
    let s := run (failing x).uncancelled 1 (.startWith patient.fresh 0)
    s.now = 5_000_000 ∧ s.phase = .pausing 105_000_000 2 ∧ s.invoked = [0] ∧ s.retries = 1 := by
  intro s
  let durations (_ : Nat) : Duration := .ofMillis64 5
  let results (_ : Nat) : CallResult := .error (.failed "unavailable")
  have hready := ready_start patient durations 0
  have hstep : Session.step (.undisturbed results durations fun _ => 0.0) (start patient 0) = _ :=
    hready.step_eq (Nat.dvd_zero _) (Duration.whole_ofMillis64 5) rfl
  have hgoes : ¬ patient.Stops 0 (results 0) := by
    rintro (hterminal | ⟨-, hallowed⟩ | ⟨hcap, -⟩)
    · cases hterminal
    · exact absurd hallowed (by decide)
    · cases hcap
  obtain ⟨_, after, _, hsettle⟩ := settle_of_goes
    (s := { start patient 0 with invoked := [0] })
    (c := .undisturbed results durations fun _ => 0.0) hready.policy ⟨rfl, by omega⟩ hgoes rfl
    (startsAt patient durations 0 0 + Clock.cut (durations 0))
  have hnow : startsAt patient durations 0 0 + Clock.cut (durations 0) = 5_000_000 := by
    decide +kernel
  have hresume : Clock.wake 5_000_000 (patient.delayAt 0) = 105_000_000 := by decide +kernel
  have hs : s = _ := hstep.trans hsettle
  rw [hnow, hresume] at hs
  rw [hs]
  exact ⟨rfl, rfl, rfl, rfl⟩

/-- Cancelled at the instant at which the first attempt ends, and at that at which the pause behind
it does. -/
theorem cancelled_session_failing :
    let attempt := run (failing 5_000_000) 4 (.startWith patient.fresh 0)
    let pause := run (failing 105_000_000) 4 (.startWith patient.fresh 0)
    (failing 5_000_000).Cancels 5_000_000 ∧ (failing 105_000_000).Cancels 105_000_000 ∧
      attempt.phase = .done (.error .cancelled) ∧ attempt.now = 5_000_000 ∧
      (Future.run (failing 5_000_000) 4 (.startWith patient.fresh 0)).deeds.reverse =
        [(0, .invokes 0), (0, .polls 0), (5_000_000, .drops 0)] ∧
      pause.phase = .done (.error .cancelled) ∧ pause.now = 105_000_000 ∧
      pause.invoked = [0] ∧ pause.retries = 1 := by
  intro attempt pause
  have hends : Behaviour.endsAt ⟨.ofMillis64 5, .returns (.error (.failed "unavailable"))⟩ 0 =
      some 5_000_000 := by decide +kernel
  have hattempt : (run (failing 5_000_000).uncancelled 0 (.startWith patient.fresh 0)).WaitsAt
      (failing 5_000_000) 5_000_000 := by
    refine ⟨by decide, fun t ht => ?_⟩
    exact Nat.le_of_eq (Option.some.inj (hends.symm.trans ht))
  obtain ⟨hnow, hphase, hinvoked, hretries⟩ := failing_pauses 105_000_000
  have hpause : (run (failing 105_000_000).uncancelled 1 (.startWith patient.fresh 0)).WaitsAt
      (failing 105_000_000) 105_000_000 := by
    refine ⟨by rw [hnow]; decide, ?_⟩
    simp only [hphase, Nat.le_refl]
  obtain ⟨_, _, hcut, _⟩ :=
    cancelled_session patient.fresh (failing 5_000_000) 0 5_000_000 (failing_cancels _)
  obtain ⟨_, _, hcut', _⟩ :=
    cancelled_session patient.fresh (failing 105_000_000) 0 105_000_000 (failing_cancels _)
  obtain ⟨_, hend, hdeeds, _⟩ := hcut 0 hattempt 4 (by decide)
  obtain ⟨_, hend', _, _⟩ := hcut' 1 hpause 4 (by decide)
  have hattempt' : attempt = _ := hend
  have hpause' : pause = _ := hend'
  rw [waiting, hphase] at hpause'
  rw [hattempt', hpause', hdeeds]
  exact ⟨failing_cancels _, failing_cancels _, rfl, rfl, rfl, rfl, rfl, hinvoked, hretries⟩

end Session

end Dialer.Retry
