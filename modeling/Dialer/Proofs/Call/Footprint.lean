import Dialer.Proofs.Call.Line

/-!
# What a call leaves behind on its line

Whatever a call does to its line, the line is left with another breaker, with other metrics, and
with its resolver asked again or not (`Line.after`). All of that, but for the metrics, depends on
the connection, the clock and the terms of the line alone: on two lines that are the same in these
(`Line.Like`) a call takes the same step and leaves the same behind (`Call.step_like`), whatever
else goes on in the exchange of either.
-/

namespace Dialer

open Resolver

/-! ## A desk does not look at its metrics -/

namespace Desk

variable {cb : BreakerCallbacks}

theorem record_reply (h : cb.Usual) (d : Desk) (now : Nat) (generation : UInt64) (success : Bool) :
    (d.record cb now generation success).2 =
      (d.breaker.record now generation success cb.trips).answer := by
  have hreport := h.report { d with breaker := (d.breaker.record now generation success cb.trips).breaker }
    (d.breaker.record now generation success cb.trips).transitions
  unfold record
  dsimp only
  split
  · rename_i hraised
    rw [hraised] at hreport
    cases hreport
  · rfl

/-- How an attempt ends is up to the breaker. -/
theorem leave_ending (h : cb.Usual) (d : Desk) (now : Nat) (generation : UInt64)
    (outcome : Outcome) :
    (d.leave cb now generation outcome).2 =
      match outcome, (d.breaker.record now generation outcome.succeeds cb.trips).answer with
      | .raises, _ => .raised
      | _, .raised => .raised
      | .hangs, .returned () => .stalled
      | .returns result, .returned () => .result result := by
  rw [← record_reply h]
  cases outcome with
  | raises => rfl
  | hangs =>
      unfold leave
      dsimp only [Outcome.succeeds]
      rcases d.record cb now generation false with ⟨after, _ | _⟩ <;> rfl
  | returns result =>
      unfold leave
      dsimp only [Outcome.succeeds]
      rw [h.succeeds]
      dsimp only
      rcases d.record cb now generation _ with ⟨after, _ | _⟩ <;> rfl

end Desk

/-! ## What is left behind -/

namespace Resolver.Exchange

theorem request_metrics (x : Exchange) (n : Nat) (metrics : Metrics) :
    (x.apply fun s => { s with metrics }).request n =
      (x.request n).apply fun s => { s with metrics } := by
  unfold request
  dsimp only [apply]
  cases x.watches[n]? with
  | none => rfl
  | some w =>
      dsimp only
      split <;> rfl

theorem refresh_metrics (x : Exchange) (r : Handle) (times : Nat) (metrics : Metrics) :
    (x.apply fun s => { s with metrics }).refresh r times =
      (x.refresh r times).apply fun s => { s with metrics } := by
  cases r with
  | none => rfl
  | some n =>
      unfold refresh
      dsimp only
      induction times generalizing x with
      | zero => rfl
      | succ times ih => rw [requests, requests, request_metrics, ih]

theorem refresh_add (x : Exchange) (r : Handle) (first second : Nat) :
    (x.refresh r first).refresh r second = x.refresh r (first + second) := by
  cases r with
  | none => rfl
  | some n =>
      unfold refresh
      dsimp only
      induction first generalizing x with
      | zero => rw [requests, Nat.zero_add]
      | succ first ih => rw [requests, ih, Nat.add_right_comm, requests]

/-- To ask a resolver again changes nothing that is shared but what is due. -/
theorem request_shared (x : Exchange) (n : Nat) :
    ∃ agenda, (x.request n).shared = { x.shared with agenda } := by
  unfold request
  cases x.watches[n]? with
  | none => exact ⟨_, rfl⟩
  | some w =>
      dsimp only
      split <;> exact ⟨_, rfl⟩

theorem refresh_shared (x : Exchange) (r : Handle) (times : Nat) :
    ∃ agenda, (x.refresh r times).shared = { x.shared with agenda } := by
  cases r with
  | none => exact ⟨_, rfl⟩
  | some n =>
      unfold refresh
      dsimp only
      induction times generalizing x with
      | zero => exact ⟨_, rfl⟩
      | succ times ih =>
          obtain ⟨first, hfirst⟩ := x.request_shared n
          obtain ⟨second, hsecond⟩ := ih (x.request n)
          refine ⟨second, ?_⟩
          rw [requests, hsecond, hfirst]

end Resolver.Exchange

namespace Line

/-- A line after use. -/
def after (l : Line) (breaker : Breaker) (asks : Nat) (metrics : Metrics) : Line :=
  { l with
    connection := { l.connection with breaker }
    exchange := (l.exchange.refresh l.connection.resolver asks).apply fun s => { s with metrics } }

/-- Two lines that go on the same. -/
structure Like (l l' : Line) : Prop where
  breaker : l'.breaker = l.breaker
  callbacks : l'.callbacks = l.callbacks
  callTimeout : l'.callTimeout = l.callTimeout
  jitterRatio : l'.jitterRatio = l.jitterRatio
  /-- The next draw is the same. -/
  draw : ∀ i j, l'.draw i = l.draw j
  now : l'.now = l.now
  cancelled : l'.isCancelled = l.isCancelled
  usual : l.callbacks.Usual

/-- Two lines have been used in the same way. -/
inductive Used (l l' : Line) : Line → Line → Prop
  | after (breaker : Breaker) (asks : Nat) (metrics metrics' : Metrics) :
      Used l l' (l.after breaker asks metrics) (l'.after breaker asks metrics')

variable {l l' m m' n n' : Line}

@[simp] theorem after_now (l : Line) (breaker : Breaker) (asks : Nat) (metrics : Metrics) :
    (l.after breaker asks metrics).now = l.now :=
  Exchange.refresh_now l.exchange l.connection.resolver asks

@[simp] theorem after_isCancelled (l : Line) (breaker : Breaker) (asks : Nat) (metrics : Metrics) :
    (l.after breaker asks metrics).isCancelled = l.isCancelled := by
  obtain ⟨agenda, hrefresh⟩ := l.exchange.refresh_shared l.connection.resolver asks
  show (l.exchange.refresh l.connection.resolver asks).shared.isCancelled l.connection.token = _
  rw [hrefresh]
  rfl

theorem after_after (l : Line) (breaker breaker' : Breaker) (asks asks' : Nat)
    (metrics metrics' : Metrics) :
    (l.after breaker asks metrics).after breaker' asks' metrics' =
      l.after breaker' (asks + asks') metrics' := by
  unfold after
  dsimp only
  rw [Exchange.refresh_metrics, Exchange.refresh_add]
  rfl

theorem withDesk_eq (l : Line) (d : Desk) : l.withDesk d = l.after d.breaker 0 d.metrics := by
  unfold withDesk after
  cases l.connection.resolver <;> rfl

theorem observe_eq (l : Line) :
    ∃ metrics, l.observe.1 = l.after (l.breaker.refresh l.now).1 0 metrics := by
  refine ⟨(l.desk.observe l.callbacks l.now).1.metrics, ?_⟩
  rw [← l.observe_line_breaker]
  exact l.withDesk_eq (l.desk.observe l.callbacks l.now).1

theorem after_self (l : Line) : l.after l.breaker 0 l.exchange.shared.metrics = l := by
  unfold after
  cases l.connection.resolver <;> rfl

/-- How many requests for fresh addresses a result brings about. -/
def requestsFor : CallResult → Nat
  | .error (.transportClosing _) => 1
  | _ => 0

theorem heed_eq (l : Line) (result : CallResult) :
    l.heed result = l.after l.breaker (requestsFor result) l.exchange.shared.metrics := by
  unfold heed
  split
  · have hmetrics := Exchange.refresh_metrics l.exchange l.connection.resolver 1
      l.exchange.shared.metrics
    unfold after requestsFor
    rw [← hmetrics]
    rfl
  · rename_i hother
    have hnone : requestsFor result = 0 := by
      unfold requestsFor
      split
      · exact absurd rfl (hother _)
      · rfl
    rw [hnone, after_self]

theorem schedule_eq (l : Line) (delay : Duration) :
    (l.schedule delay).1 = l.after l.breaker 0 (l.exchange.shared.metrics.tally .retries) := by
  unfold schedule after
  cases l.connection.resolver <;> rfl

namespace Used

theorem refl (l l' : Line) (h : l'.breaker = l.breaker) : Used l l' l l' := by
  have hused : Used l l' _ _ := .after l.breaker 0 l.exchange.shared.metrics
    l'.exchange.shared.metrics
  have hself := after_self l'
  rw [h] at hself
  rwa [after_self, hself] at hused

theorem trans (h : Used l l' m m') (h' : Used m m' n n') : Used l l' n n' := by
  obtain ⟨breaker, asks, metrics, metrics'⟩ := h
  obtain ⟨breaker', asks', after, after'⟩ := h'
  rw [after_after, after_after]
  exact .after breaker' (asks + asks') after after'

theorem like (h : Used l l' m m') (hlike : l.Like l') : m.Like m' := by
  obtain ⟨breaker, asks, metrics, metrics'⟩ := h
  constructor
  case breaker => rfl
  case callbacks => exact hlike.callbacks
  case callTimeout => exact hlike.callTimeout
  case jitterRatio => exact hlike.jitterRatio
  case draw => exact hlike.draw
  case now => rw [after_now, after_now, hlike.now]
  case cancelled => rw [after_isCancelled, after_isCancelled, hlike.cancelled]
  case usual => exact hlike.usual

end Used

/-! ## The uses of two lines -/

theorem withDesk_used {d d' : Desk} (h : d'.breaker = d.breaker) :
    Used l l' (l.withDesk d) (l'.withDesk d') := by
  rw [withDesk_eq, withDesk_eq, h]
  exact .after d.breaker 0 d.metrics d'.metrics

theorem enter_like (h : l.Like l') :
    Used l l' l.enter.1 l'.enter.1 ∧ l'.enter.2 = l.enter.2 := by
  constructor
  · refine withDesk_used ?_
    have hasked := l.enter_breaker
    have hasked' := l'.enter_breaker
    rw [h.breaker, h.now] at hasked'
    exact hasked'.trans hasked.symm
  · rw [enter_entry l h.usual, enter_entry l' (h.callbacks ▸ h.usual), h.breaker, h.now]

theorem leave_like (h : l.Like l') (generation : UInt64) (outcome : Outcome) :
    Used l l' (l.leave generation outcome).1 (l'.leave generation outcome).1 ∧
      (l'.leave generation outcome).2 = (l.leave generation outcome).2 := by
  have husual' : l'.callbacks.Usual := h.callbacks ▸ h.usual
  constructor
  · refine withDesk_used ?_
    have hleft := l.leave_breaker h.usual generation outcome
    have hleft' := l'.leave_breaker husual' generation outcome
    rw [h.breaker, h.now, h.callbacks] at hleft'
    exact hleft'.trans hleft.symm
  · show (l'.desk.leave l'.callbacks l'.now generation outcome).2 =
      (l.desk.leave l.callbacks l.now generation outcome).2
    have hbreaker : l'.desk.breaker = l.desk.breaker := h.breaker
    rw [Desk.leave_ending husual', Desk.leave_ending h.usual, hbreaker, h.now, h.callbacks]

theorem abandon_like (h : l.Like l') (generation : UInt64) :
    Used l l' (l.abandon generation) (l'.abandon generation) := by
  refine withDesk_used ?_
  have hleft := l.abandon_breaker generation
  have hleft' := l'.abandon_breaker generation
  rw [h.breaker, h.now, h.callbacks] at hleft'
  exact hleft'.trans hleft.symm

theorem heed_like (h : l.Like l') (result : CallResult) :
    Used l l' (l.heed result) (l'.heed result) := by
  rw [heed_eq, heed_eq, h.breaker]
  exact .after l.breaker (requestsFor result) _ _

theorem schedule_like (h : l.Like l') (delay : Duration) :
    Used l l' (l.schedule delay).1 (l'.schedule delay).1 ∧
      (l'.schedule delay).2 = (l.schedule delay).2 := by
  constructor
  · rw [schedule_eq, schedule_eq, h.breaker]
    exact .after l.breaker 0 _ _
  · show Backoff.jittered delay l'.jitterRatio _ = Backoff.jittered delay l.jitterRatio _
    rw [h.jitterRatio, h.draw]

end Line

namespace Call

variable {l l' : Line}

theorem finish_like (hnow : l'.now = l.now) (c : Call) (phase : CallPhase) :
    c.finish l' phase = c.finish l phase := by
  unfold finish
  rw [hnow]

theorem settle_like (h : l.Like l') (c : Call) (attempt : UInt32) (result : CallResult) :
    (c.settle l' attempt result).1 = (c.settle l attempt result).1 ∧
      l.Used l' (c.settle l attempt result).2 (c.settle l' attempt result).2 := by
  have hrefl := Line.Used.refl l l' h.breaker
  cases result with
  | ok value => exact ⟨finish_like h.now c _, hrefl⟩
  | error error =>
      unfold settle
      dsimp only
      rcases c.policy.continueAfter attempt error with ⟨delay | error, policy⟩
      · obtain ⟨hused, hdelay⟩ := Line.schedule_like h delay
        dsimp only
        rw [hdelay, (hused.like h).now]
        exact ⟨rfl, hused⟩
      · exact ⟨finish_like h.now _ _, hrefl⟩

theorem conclude_like (h : l.Like l') (c : Call) (attempt : UInt32) (work : Attempt)
    (outcome : Outcome) :
    (c.conclude l' attempt work outcome).1 = (c.conclude l attempt work outcome).1 ∧
      l.Used l' (c.conclude l attempt work outcome).2 (c.conclude l' attempt work outcome).2 := by
  obtain ⟨hleft, hending⟩ := Line.leave_like h work.generation outcome
  have hlike := hleft.like h
  unfold conclude
  generalize l.leave work.generation outcome = left at hleft hending hlike ⊢
  generalize l'.leave work.generation outcome = left' at hleft hending hlike ⊢
  obtain ⟨m, ending⟩ := left
  obtain ⟨m', ending'⟩ := left'
  dsimp only at hleft hlike hending
  rw [hending]
  cases ending with
  | result result =>
      have hheeds := Line.heed_like hlike result
      obtain ⟨hcall, hsettles⟩ := settle_like (hheeds.like hlike) c attempt result
      exact ⟨hcall, hleft.trans (hheeds.trans hsettles)⟩
  | raised => exact ⟨finish_like hlike.now c _, hleft⟩
  | stalled => exact ⟨finish_like hlike.now c _, hleft⟩

theorem proceed_like (h : l.Like l') (c : Call) (attempt : UInt32) (work : Attempt) :
    (c.proceed l' attempt work).1 = (c.proceed l attempt work).1 ∧
      l.Used l' (c.proceed l attempt work).2 (c.proceed l' attempt work).2 := by
  unfold proceed
  rw [h.now, h.callTimeout]
  split
  · exact conclude_like h c attempt work work.outcome
  · split
    · exact conclude_like h c attempt work _
    · exact ⟨rfl, .refl l l' h.breaker⟩

theorem make_like (h : l.Like l') (c : Call) (attempt : UInt32) :
    (c.make l' attempt).1 = (c.make l attempt).1 ∧
      l.Used l' (c.make l attempt).2 (c.make l' attempt).2 := by
  obtain ⟨hentered, hentry⟩ := Line.enter_like h
  have hlike := hentered.like h
  unfold make
  generalize l.enter = entered at hentered hentry hlike ⊢
  generalize l'.enter = entered' at hentered hentry hlike ⊢
  obtain ⟨m, entry⟩ := entered
  obtain ⟨m', entry'⟩ := entered'
  dsimp only at hentered hlike hentry
  rw [hentry]
  cases entry with
  | passed generation =>
      dsimp only
      rw [hlike.now, hlike.callTimeout]
      obtain ⟨hcall, hproceeds⟩ := proceed_like hlike { c with
        made := c.made + 1, begun := m.now :: c.begun } attempt
          ⟨generation, (c.operation c.made).outcome, (c.operation c.made).endsAt m.now,
            Timeout.deadline? m.callTimeout m.now⟩
      exact ⟨hcall, hentered.trans hproceeds⟩
  | rejected error =>
      obtain ⟨hcall, hsettles⟩ := settle_like hlike { c with made := c.made + 1 } attempt
        (.error error)
      exact ⟨hcall, hentered.trans hsettles⟩
  | raised => exact ⟨finish_like hlike.now _ _, hentered⟩

theorem cancel_like (h : l.Like l') (c : Call) :
    (c.cancel l').1 = (c.cancel l).1 ∧ l.Used l' (c.cancel l).2 (c.cancel l').2 := by
  have hrefl := Line.Used.refl l l' h.breaker
  unfold cancel
  cases c.phase with
  | ready attempt => exact ⟨finish_like h.now _ _, hrefl⟩
  | running attempt work =>
      have habandoned := Line.abandon_like h work.generation
      exact ⟨finish_like (habandoned.like h).now c _, habandoned⟩
  | pausing resume attempt => exact ⟨finish_like h.now c _, hrefl⟩
  | _ => exact ⟨rfl, hrefl⟩

/-- **A call takes the same step on lines that go on the same,** and leaves them used in the same
way. -/
theorem step_like (h : l.Like l') (c : Call) :
    (c.step l').1 = (c.step l).1 ∧ l.Used l' (c.step l).2 (c.step l').2 := by
  have hrefl := Line.Used.refl l l' h.breaker
  unfold step
  rw [h.cancelled]
  split
  · exact cancel_like h c
  · cases c.phase with
    | ready attempt => exact make_like h c attempt
    | running attempt work => exact proceed_like h c attempt work
    | pausing resume attempt =>
        dsimp only
        rw [h.now]
        split
        · exact ⟨rfl, hrefl⟩
        · exact ⟨rfl, hrefl⟩
    | _ => exact ⟨rfl, hrefl⟩

theorem abandon_like (h : l.Like l') (c : Call) : l.Used l' (c.abandon l) (c.abandon l') := by
  unfold abandon
  cases c.phase with
  | running attempt work => exact Line.abandon_like h work.generation
  | _ => exact .refl l l' h.breaker

end Call

end Dialer
