import Dialer.Proofs.Backoff
import Dialer.Proofs.Call.Line

/-!
# The steps of a call

A step of a call does one or two things at the breaker, or none (`Call.deeds`): it asks and is
refused, it passes and begins an attempt, the attempt ends, or it is dropped. An attempt that
takes no time begins and ends in one step. `Call.Moves` says what the call and its line come to
with each of these deeds, and `Call.step_went` that a step is made of them and of nothing else.

Between two attempts a call draws one delay, so its generator has handed out as many as there
were attempts before (`Call.Paced`).
-/

namespace Dialer

/-! ## The policy -/

namespace RetryPolicy

variable {p p' : RetryPolicy} {attempt : UInt32} {error : CallError} {delay : Duration}

theorem continueAfter_of_terminal (h : error.kind.isTerminal = true) (p : RetryPolicy)
    (attempt : UInt32) : p.continueAfter attempt error = (.giveUp error, p) := by
  simp [continueAfter, decide, h]

theorem decide_retry (h : p.decide attempt error = (.retry delay, p')) :
    delay = p.backoff.next.1 ∧ p'.backoff = p.backoff.next.2 := by
  unfold decide at h
  split at h
  · cases h
  · split at h
    · cases h
    · dsimp only at h
      split at h
      · cases h
      · cases h
        exact ⟨rfl, rfl⟩

/-- A pause is the next delay of the generator. -/
theorem continueAfter_pause (h : p.continueAfter attempt error = (.pause delay, p')) :
    delay = p.backoff.next.1 ∧ p'.backoff = p.backoff.next.2 := by
  unfold continueAfter at h
  rcases hdecide : p.decide attempt error with ⟨decision, after⟩
  rw [hdecide] at h
  cases decision with
  | retry delay =>
      cases h
      exact decide_retry hdecide
  | stop reason => cases reason <;> cases h

end RetryPolicy

/-- How an attempt ends now, if it does: by itself, or else at its deadline. -/
def Attempt.ending? (work : Attempt) (l : Line) : Option Outcome :=
  if Resolver.Watch.isPast l.now work.endsAt then some work.outcome
  else if Resolver.Watch.isPast l.now work.deadline then
    some (.returns (.error (.timeout l.callTimeout)))
  else none

/-- An attempt that ends has come to its own end, or, before that, to its deadline. -/
theorem Attempt.ending?_cases {work : Attempt} {l : Line} {outcome : Outcome}
    (h : work.ending? l = some outcome) :
    (∃ t, work.endsAt = some t ∧ t ≤ l.now ∧ outcome = work.outcome) ∨
      (∀ t, work.endsAt = some t → l.now < t) ∧ ∃ t, work.deadline = some t ∧ t ≤ l.now ∧
        outcome = .returns (.error (.timeout l.callTimeout)) := by
  unfold Attempt.ending? at h
  split at h
  · rename_i hpast
    obtain ⟨t, howns, hle⟩ := Resolver.Watch.isPast_iff.mp hpast
    exact .inl ⟨t, howns, hle, (Option.some.inj h).symm⟩
  · rename_i hgoes
    split at h
    · rename_i hpast
      obtain ⟨t, hdue, hle⟩ := Resolver.Watch.isPast_iff.mp hpast
      refine .inr ⟨fun u howns => ?_, t, hdue, hle, (Option.some.inj h).symm⟩
      exact Nat.lt_of_not_le fun hge => hgoes (Resolver.Watch.isPast_iff.mpr ⟨u, howns, hge⟩)
    · cases h

theorem Attempt.ending?_congr (work : Attempt) {l l' : Line} (h : l.Keeps l') :
    work.ending? l' = work.ending? l := by
  unfold Attempt.ending?
  rw [h.now, h.callTimeout]

namespace Call

variable {c c' : Call} {l l' : Line}

/-! ## Deeds -/

/-- What a call does at the breaker. -/
inductive Deed where
  /-- It asks to pass, and is rejected. -/
  | refused
  /-- It passes, and what the operation gave it begins to run. -/
  | boards (generation : UInt64) (invocation : Nat) (behaviour : Behaviour)
  /-- The attempt that runs ends. -/
  | tells (outcome : Outcome)
  /-- The attempt that runs is dropped. -/
  | drops

/-- The attempt that begins when the call passes. -/
def attempt (c : Call) (l : Line) (generation : UInt64) : Attempt :=
  let behaviour := c.operation c.made
  ⟨generation, behaviour.outcome, behaviour.endsAt l.now, Timeout.deadline? l.callTimeout l.now⟩

/-- The end of an attempt, if it is there. -/
def endings (work : Attempt) (l : Line) : List Deed :=
  ((work.ending? l).map Deed.tells).toList

/-- What the next step of a call does. -/
def deeds (c : Call) (l : Line) : List Deed :=
  if l.isCancelled then
    match c.phase with
    | .running _ _ => [.drops]
    | _ => []
  else
    match c.phase with
    | .ready _ =>
      match l.enter.2 with
      | .passed generation =>
        .boards generation c.made (c.operation c.made) :: endings (c.attempt l generation) l
      | _ => [.refused]
    | .running _ work => endings work l
    | _ => []

/-- A call that begins an attempt. -/
def board (c : Call) (l : Line) (number : UInt32) (generation : UInt64) : Call :=
  { c with
    made := c.made + 1
    begun := l.now :: c.begun
    phase := .running number (c.attempt l generation) }

/-- A call that is rejected. -/
def refuse (c : Call) (l : Line) (error : CallError) : Call :=
  { c with made := c.made + 1 }.finish l (.over (.error error))

/-- What a call and its line come to with a deed, or with none. -/
inductive Moves (l : Line) (c : Call) : List Deed → Line → Call → Prop
  /-- It waits, or has ended. -/
  | rests : Moves l c [] l c
  | resumes {resume : Nat} {number : UInt32} (hphase : c.phase = .pausing resume number) :
      Moves l c [] l { c with phase := .ready number }
  /-- It is cancelled between two attempts. -/
  | stops (made : Nat) (hphase : ∀ number work, c.phase ≠ .running number work) :
      Moves l c [] l ({ c with made }.finish l (.over (.error .cancelled)))
  | refused {number : UInt32} {error : CallError} (hphase : c.phase = .ready number)
      (henter : l.enter.2 = .rejected error) :
      Moves l c [.refused] l.enter.1 (c.refuse l error)
  | boards {number : UInt32} {generation : UInt64} (hphase : c.phase = .ready number)
      (henter : l.enter.2 = .passed generation) :
      Moves l c [.boards generation c.made (c.operation c.made)] l.enter.1
        (c.board l number generation)
  | tells {number : UInt32} {work : Attempt} {outcome : Outcome}
      (hphase : c.phase = .running number work) (hends : work.ending? l = some outcome) :
      Moves l c [.tells outcome] (c.conclude l number work outcome).2
        (c.conclude l number work outcome).1
  | drops {number : UInt32} {work : Attempt} (hphase : c.phase = .running number work) :
      Moves l c [.drops] (l.abandon work.generation)
        (c.finish l (.over (.error .cancelled)))

/-- A number of moves. -/
inductive Went : Line → Call → List Deed → Line → Call → Prop
  | here (l : Line) (c : Call) : Went l c [] l c
  | move {l l' l'' : Line} {c c' c'' : Call} {now later : List Deed} (h : Moves l c now l' c')
      (hrest : Went l' c' later l'' c'') : Went l c (now ++ later) l'' c''

theorem Moves.went {now : List Deed} (h : Moves l c now l' c') : Went l c now l' c' := by
  simpa using Went.move h (.here l' c')

/-! ## One step -/

/-- What an attempt comes to does not depend on where the call stood. -/
theorem conclude_running (number : UInt32) (work : Attempt) (outcome : Outcome)
    (phase : CallPhase) :
    { c with phase }.conclude l number work outcome = c.conclude l number work outcome := by
  unfold conclude
  rcases l.leave work.generation outcome with ⟨l', ending⟩
  cases ending with
  | raised => rfl
  | stalled => rfl
  | result result =>
      cases result with
      | ok value => rfl
      | error error =>
          dsimp only [settle]
          rcases c.policy.continueAfter number error with ⟨continuation, policy⟩
          cases continuation <;> rfl

theorem proceed_eq (c : Call) (l : Line) (number : UInt32) (work : Attempt) :
    c.proceed l number work = match work.ending? l with
      | some outcome => c.conclude l number work outcome
      | none => ({ c with phase := .running number work }, l) := by
  unfold proceed Attempt.ending?
  cases Resolver.Watch.isPast l.now work.endsAt with
  | true => rfl
  | false => cases Resolver.Watch.isPast l.now work.deadline <;> rfl

theorem proceed_went {number : UInt32} {work : Attempt} (hphase : c.phase = .running number work) :
    Went l c (endings work l) (c.proceed l number work).2 (c.proceed l number work).1 := by
  rw [proceed_eq]
  unfold endings
  cases hends : work.ending? l with
  | none =>
      dsimp only
      rw [← hphase]
      exact .here l c
  | some outcome => exact (Moves.tells hphase hends).went

theorem proceed_running (c : Call) (l : Line) (number : UInt32) (work : Attempt)
    (phase : CallPhase) :
    { c with phase }.proceed l number work = c.proceed l number work := by
  rw [proceed_eq, proceed_eq]
  cases work.ending? l with
  | none => rfl
  | some outcome => exact conclude_running number work outcome phase

theorem make_of_passed {number : UInt32} {generation : UInt64}
    (henter : l.enter.2 = .passed generation) :
    c.make l number =
      (c.board l number generation).proceed l.enter.1 number (c.attempt l generation) := by
  have hkeeps := l.enter_keeps
  unfold make
  generalize l.enter = r at henter hkeeps ⊢
  obtain ⟨l', entry⟩ := r
  obtain rfl : entry = .passed generation := henter
  dsimp only at hkeeps ⊢
  rw [hkeeps.now, hkeeps.callTimeout]
  exact (proceed_running { c with made := c.made + 1, begun := l.now :: c.begun } l' number
    (c.attempt l generation) (.running number (c.attempt l generation))).symm

theorem settle_of_terminal {error : CallError} (h : error.kind.isTerminal = true) (c : Call)
    (l : Line) (number : UInt32) :
    c.settle l number (.error error) = (c.finish l (.over (.error error)), l) := by
  simp only [settle, RetryPolicy.continueAfter_of_terminal h]

/-- A rejection is the end of a call. -/
theorem make_of_rejected {number : UInt32} {error : CallError}
    (henter : l.enter.2 = .rejected error) :
    c.make l number = (c.refuse l error, l.enter.1) := by
  have hterminal : error.kind.isTerminal = true := by
    rcases Desk.error_of_rejected henter with rfl | rfl <;> rfl
  have hkeeps := l.enter_keeps
  unfold make
  generalize l.enter = r at henter hkeeps ⊢
  obtain ⟨l', entry⟩ := r
  obtain rfl : entry = .rejected error := henter
  dsimp only at hkeeps ⊢
  rw [settle_of_terminal hterminal]
  unfold refuse finish
  rw [hkeeps.now]

theorem enter_not_raised (h : l.callbacks.Usual) : l.enter.2 ≠ .raised := by
  rw [l.enter_entry h]
  cases (l.breaker.ask l.now).answer <;> simp

theorem make_went {number : UInt32} (h : l.callbacks.Usual) (hphase : c.phase = .ready number)
    (hgoes : l.isCancelled = false) :
    Went l c (c.deeds l) (c.make l number).2 (c.make l number).1 := by
  unfold deeds
  simp only [hgoes, hphase, if_false, Bool.false_eq_true]
  cases henter : l.enter.2 with
  | raised => exact absurd henter (enter_not_raised h)
  | rejected error =>
      rw [make_of_rejected henter]
      exact (Moves.refused hphase henter).went
  | passed generation =>
      have hends := (c.attempt l generation).ending?_congr l.enter_keeps
      have hattempt := proceed_went (c := c.board l number generation) (l := l.enter.1) rfl
      rw [make_of_passed henter]
      unfold endings at hattempt ⊢
      rw [hends] at hattempt
      exact Went.move (.boards hphase henter) hattempt

/-- **A step is made of moves.** -/
theorem step_went (c : Call) (l : Line) (h : l.callbacks.Usual) :
    Went l c (c.deeds l) (c.step l).2 (c.step l).1 := by
  cases hcancelled : l.isCancelled with
  | true =>
      unfold deeds step cancel
      simp only [hcancelled, if_true]
      cases hphase : c.phase with
      | ready number => exact (Moves.stops (c.made + 1) (by simp [hphase])).went
      | running number work => exact (Moves.drops hphase).went
      | pausing resume number => exact (Moves.stops c.made (by simp [hphase])).went
      | _ => exact .here l c
  | false =>
      unfold step
      simp only [hcancelled, if_false, Bool.false_eq_true]
      cases hphase : c.phase with
      | ready number => exact make_went h hphase hcancelled
      | running number work =>
          have hdeeds : c.deeds l = endings work l := by simp [deeds, hcancelled, hphase]
          rw [hdeeds]
          exact proceed_went hphase
      | pausing resume number =>
          have hdeeds : c.deeds l = [] := by simp [deeds, hcancelled, hphase]
          rw [hdeeds]
          dsimp only
          by_cases hdue : resume ≤ l.now
          · rw [if_pos hdue]
            exact (Moves.resumes hphase).went
          · rw [if_neg hdue]
            exact .here l c
      | _ =>
          have hdeeds : c.deeds l = [] := by simp [deeds, hcancelled, hphase]
          rw [hdeeds]
          exact .here l c

/-! ## Behind an attempt -/

/-- A call whose attempt has ended: it is over, or pauses for the next delay. -/
structure Behind (l : Line) (c c' : Call) : Prop where
  operation : c'.operation = c.operation
  made : c'.made = c.made
  begun : c'.begun = c.begun
  phase : c'.isOver = true ∨ ∃ resume number, c'.phase = .pausing resume number ∧
    c'.policy.backoff = c.policy.backoff.next.2 ∧
    (l.jitterRatio = 0.0 → resume = Clock.wake l.now c.policy.backoff.next.1)

theorem behind_finish (c : Call) (l l' : Line) {phase : CallPhase} (policy : RetryPolicy)
    (h : phase = .raised ∨ ∃ result, phase = .over result) :
    Behind l c ({ c with policy }.finish l' phase) := by
  refine ⟨rfl, rfl, rfl, .inl ?_⟩
  rcases h with rfl | ⟨result, rfl⟩ <;> rfl

theorem settle_behind (c : Call) (l : Line) (number : UInt32) (result : CallResult) :
    Behind l c (c.settle l number result).1 ∧ l.Keeps (c.settle l number result).2 ∧
      (c.settle l number result).2.breaker = l.breaker := by
  cases result with
  | ok value => exact ⟨behind_finish c l l c.policy (.inr ⟨_, rfl⟩), .refl l, rfl⟩
  | error error =>
      unfold settle
      dsimp only
      rcases hcontinue : c.policy.continueAfter number error with ⟨continuation, policy⟩
      cases continuation with
      | giveUp error => exact ⟨behind_finish c l l policy (.inr ⟨_, rfl⟩), .refl l, rfl⟩
      | pause delay =>
          obtain ⟨hdelay, hpolicy⟩ := RetryPolicy.continueAfter_pause hcontinue
          refine ⟨⟨rfl, rfl, rfl, .inr ⟨_, _, rfl, hpolicy, fun hjitter => ?_⟩⟩,
            l.schedule_keeps delay, rfl⟩
          rw [(l.schedule_keeps delay).now, l.schedule_delay hjitter, hdelay]

theorem conclude_behind (c : Call) (l : Line) (number : UInt32) (work : Attempt)
    (outcome : Outcome) :
    Behind l c (c.conclude l number work outcome).1 ∧
      l.Keeps (c.conclude l number work outcome).2 ∧
      (c.conclude l number work outcome).2.breaker =
        (l.leave work.generation outcome).1.breaker := by
  have hkeeps := l.leave_keeps work.generation outcome
  unfold conclude
  generalize l.leave work.generation outcome = r at hkeeps ⊢
  obtain ⟨l', ending⟩ := r
  cases ending with
  | raised => exact ⟨behind_finish c l l' c.policy (.inl rfl), hkeeps, rfl⟩
  | stalled => exact ⟨behind_finish c l l' c.policy (.inl rfl), hkeeps, rfl⟩
  | result result =>
      have hheeds := l'.heed_keeps result
      obtain ⟨hbehind, hsettles, hbreaker⟩ := settle_behind c (l'.heed result) number result
      have hall := hkeeps.trans hheeds
      refine ⟨?_, hall.trans hsettles, hbreaker.trans (l'.heed_breaker result)⟩
      obtain ⟨hoperation, hmade, hbegun, hphase⟩ := hbehind
      rw [hall.now, hall.jitterRatio] at hphase
      exact ⟨hoperation, hmade, hbegun, hphase⟩

theorem proceed_begun (c : Call) (l : Line) (number : UInt32) (work : Attempt) :
    (c.proceed l number work).1.begun = c.begun := by
  rw [proceed_eq]
  cases work.ending? l with
  | none => rfl
  | some outcome => exact (conclude_behind c l number work outcome).1.begun

theorem make_begun (c : Call) (l : Line) (number : UInt32) :
    (c.make l number).1.begun = c.begun ∨ ∃ generation, l.enter.2 = .passed generation ∧
      (c.make l number).1.begun = l.now :: c.begun := by
  cases henter : l.enter.2 with
  | passed generation =>
      rw [make_of_passed henter, proceed_begun]
      exact .inr ⟨generation, rfl, rfl⟩
  | rejected error =>
      rw [make_of_rejected henter]
      exact .inl rfl
  | raised =>
      unfold make
      generalize l.enter = r at henter ⊢
      obtain ⟨l', entry⟩ := r
      obtain rfl : entry = .raised := henter
      exact .inl rfl

/-- An attempt begins to run only if the breaker lets it pass. -/
theorem step_begun (c : Call) (l : Line) :
    (c.step l).1.begun = c.begun ∨
      ∃ generation, l.enter.2 = .passed generation ∧ (c.step l).1.begun = l.now :: c.begun := by
  unfold step
  by_cases hcancelled : l.isCancelled = true
  · rw [if_pos hcancelled]
    unfold cancel
    split <;> exact .inl rfl
  · rw [if_neg hcancelled]
    split
    · exact c.make_begun l _
    · exact .inl (proceed_begun c l _ _)
    · left
      split <;> rfl
    · exact .inl rfl
    · exact .inl rfl

/-! ## Delays -/

/-- As many delays have been drawn as attempts were made before. -/
def Paced (base max : Duration) (c : Call) : Prop :=
  match c.phase with
  | .ready _ | .pausing _ _ => Backoff.Drawn base max c.made c.policy.backoff
  | .running _ _ => ∃ drawn, c.made = drawn + 1 ∧ Backoff.Drawn base max drawn c.policy.backoff
  | .over _ | .raised => True

variable {base max : Duration}

theorem paced_start (operation : Operation) (p : RetryPolicy) :
    Paced p.backoff.base p.backoff.max (start operation p) :=
  Backoff.drawn_restart p.backoff

theorem paced_of_isOver (h : c.isOver = true) : Paced base max c := by
  unfold Paced
  unfold isOver at h
  cases hphase : c.phase <;> simp_all

end Call

end Dialer
