import Dialer.Connector
import Dialer.Proofs.Breaker.Notices

/-!
# What the use of a line does

A line is used by asking its breaker to pass, by ending an attempt, by dropping one, and around
that by asking for fresh addresses and for a delay. Each use does to the breaker what the
operation of that name does, or nothing, and leaves the terms of the line as they are
(`Line.Keeps`): the time, the callbacks, the call timeout, the jitter and the policy.

With the callbacks that a configuration asks for (`BreakerCallbacks.Usual`) a call learns the
breaker's own answer, and the breaker hears of every attempt that ends.
-/

namespace Dialer

namespace Resolver.Exchange

@[simp] theorem request_now (x : Exchange) (n : Nat) : (x.request n).now = x.now := by
  unfold request
  cases x.watches[n]? with
  | none => rfl
  | some w =>
      dsimp only
      rcases w.request with ⟨w', _ | _⟩ <;> rfl

@[simp] theorem requests_now (x : Exchange) (n times : Nat) :
    (requests n times x).now = x.now := by
  induction times generalizing x with
  | zero => rfl
  | succ times ih => rw [requests, ih, request_now]

@[simp] theorem refresh_now (x : Exchange) (r : Handle) (times : Nat) :
    (x.refresh r times).now = x.now := by
  cases r with
  | none => rfl
  | some n => exact requests_now x n times

end Resolver.Exchange

/-! ## Usual callbacks -/

/-- There is no hook, and results are classified by their kind. -/
structure BreakerCallbacks.Usual (cb : BreakerCallbacks) : Prop where
  hook : cb.hook = none
  succeeds : ∀ kind, cb.succeeds kind = .returned (countsAsSuccess kind)

theorem BreakerCallbacks.usual_ofConfig (c : BreakerConfig) : (ofConfig c).Usual where
  hook := rfl
  succeeds _ := rfl

/-- What the breaker is told of an attempt that ends by itself. -/
def Outcome.succeeds : Outcome → Bool
  | .returns result => BreakerCallbacks.countsAsSuccess (Desk.kindOf result)
  | .hangs | .raises => false

namespace BreakerCallbacks.Usual

variable {cb : BreakerCallbacks}

theorem report (h : cb.Usual) (d : Desk) (made : List Transition) :
    (d.report cb made).2 = .returned () :=
  Desk.report_returned cb d (by simp [h.hook]) made

theorem entry (h : cb.Usual) (d : Desk) (now : Nat) :
    (d.enter cb now).2 = match (d.breaker.ask now).answer with
      | .admitted generation => .passed generation
      | .rejected error => .rejected error :=
  Desk.enter_entry_of_report cb d now (h.report _ _)

theorem verdict (h : cb.Usual) (outcome : Outcome) :
    cb.verdict? outcome = some outcome.succeeds := by
  cases outcome with
  | hangs => rfl
  | raises => rfl
  | returns result => simp [verdict?, h.succeeds, Outcome.succeeds]

end BreakerCallbacks.Usual

/-! ## The uses of a line -/

namespace Line

/-- The terms on which calls go. -/
structure Keeps (l l' : Line) : Prop where
  now : l'.now = l.now
  callbacks : l'.callbacks = l.callbacks
  callTimeout : l'.callTimeout = l.callTimeout
  jitterRatio : l'.jitterRatio = l.jitterRatio
  policy : l'.connection.policy = l.connection.policy

theorem Keeps.refl (l : Line) : Keeps l l :=
  ⟨rfl, rfl, rfl, rfl, rfl⟩

theorem Keeps.trans {l l' l'' : Line} (h : Keeps l l') (h' : Keeps l' l'') : Keeps l l'' :=
  ⟨h'.now.trans h.now, h'.callbacks.trans h.callbacks, h'.callTimeout.trans h.callTimeout,
    h'.jitterRatio.trans h.jitterRatio, h'.policy.trans h.policy⟩

/-- The breaker of the connection. -/
abbrev breaker (l : Line) : Breaker :=
  l.connection.breaker

theorem withDesk_keeps (l : Line) (d : Desk) : l.Keeps (l.withDesk d) :=
  ⟨rfl, rfl, rfl, rfl, rfl⟩

theorem enter_keeps (l : Line) : l.Keeps l.enter.1 :=
  l.withDesk_keeps _

theorem leave_keeps (l : Line) (generation : UInt64) (outcome : Outcome) :
    l.Keeps (l.leave generation outcome).1 :=
  l.withDesk_keeps _

theorem abandon_keeps (l : Line) (generation : UInt64) : l.Keeps (l.abandon generation) :=
  l.withDesk_keeps _

theorem observe_keeps (l : Line) : l.Keeps l.observe.1 :=
  l.withDesk_keeps _

theorem heed_keeps (l : Line) (result : CallResult) : l.Keeps (l.heed result) := by
  unfold heed
  split
  · exact ⟨Resolver.Exchange.refresh_now _ _ _, rfl, rfl, rfl, rfl⟩
  · exact .refl l

theorem schedule_keeps (l : Line) (delay : Duration) : l.Keeps (l.schedule delay).1 :=
  ⟨rfl, rfl, rfl, rfl, rfl⟩

@[simp] theorem heed_breaker (l : Line) (result : CallResult) :
    (l.heed result).breaker = l.breaker := by
  unfold heed
  split <;> rfl

theorem enter_breaker (l : Line) : l.enter.1.breaker = (l.breaker.ask l.now).breaker :=
  Desk.enter_breaker l.callbacks l.desk l.now

theorem enter_entry (l : Line) (h : l.callbacks.Usual) :
    l.enter.2 = match (l.breaker.ask l.now).answer with
      | .admitted generation => .passed generation
      | .rejected error => .rejected error :=
  h.entry l.desk l.now

theorem leave_breaker (l : Line) (h : l.callbacks.Usual) (generation : UInt64) (outcome : Outcome) :
    (l.leave generation outcome).1.breaker =
      (l.breaker.record l.now generation outcome.succeeds l.callbacks.trips).breaker := by
  have hdesk := Desk.leave_desk l.callbacks l.desk l.now generation outcome
  rw [h.verdict] at hdesk
  show (l.desk.leave l.callbacks l.now generation outcome).1.breaker = _
  rw [hdesk]
  exact Desk.record_breaker _ _ _ _ _

theorem abandon_breaker (l : Line) (generation : UInt64) :
    (l.abandon generation).breaker =
      (l.breaker.record l.now generation false l.callbacks.trips).breaker :=
  Desk.record_breaker l.callbacks l.desk l.now generation false

theorem observe_line_breaker (l : Line) : l.observe.1.breaker = (l.breaker.refresh l.now).1 :=
  Desk.observe_breaker l.callbacks l.desk l.now

/-- Without jitter the delay is the one asked for. -/
theorem schedule_delay (l : Line) (h : l.jitterRatio = 0.0) (delay : Duration) :
    (l.schedule delay).2 = delay := by
  have hzero : (0.0 : Float) ≤ 0.0 := by decide
  show Backoff.jittered delay l.jitterRatio _ = delay
  unfold Backoff.jittered
  rw [h]
  simp [hzero]

end Line

end Dialer
