import Dialer.Proofs.Call.Footprint
import Dialer.Proofs.Call.Invocations
import Mathlib.Algebra.Ring.Nat

/-!
# Asking for fresh addresses

A call asks its resolver for fresh addresses when an attempt ends with the error that the transport
is closing. Such an error is terminal, so the call ends with it in the same step, and it asks once
(`Call.step_requests`). It goes by the error itself, however, where the breaker and the retry policy
go by the kind: a closing that lies within an exhausted session (`CallError.wrapsClosing`) ends the
call as well, and nothing is asked for. The operation must have given such an error, as a call that
is out of attempts never wraps a closing (`Call.Given`).

* `Line.Asked` — a line has been used, with a number of requests;
* `Switchboard.Heeded` — the requests of a session are those of its result, whatever happens.
-/

namespace Dialer

open Resolver

/-! ## Closings -/

namespace CallError

/-- A closing that lies within an exhausted session. -/
def wrapsClosing : CallError → Bool
  | .retriesExhausted _ last => last.kind == .transportClosing
  | _ => false

theorem kind_eq_transportClosing_iff (error : CallError) :
    error.kind = .transportClosing ↔
      (∃ reason, error = .transportClosing reason) ∨ error.wrapsClosing = true := by
  cases error <;> simp [kind, wrapsClosing]

end CallError

namespace Line

/-- An error after which a call goes on asks for nothing. -/
theorem requestsFor_of_not_terminal {error : CallError} (h : error.kind.isTerminal = false) :
    requestsFor (.error error) = 0 := by
  cases error with
  | transportClosing reason => cases h
  | _ => rfl

theorem requestsFor_cases (result : CallResult) : requestsFor result ≤ 1 ∧
    (requestsFor result = 1 ↔ ∃ reason, result = .error (.transportClosing reason)) := by
  unfold requestsFor
  split <;> simp_all

/-- To go by the error and to go by its kind is the same but for a wrapped closing. -/
theorem requestsFor_eq_due_iff (result : CallResult) :
    requestsFor result = (if Desk.kindOf result = some .transportClosing then 1 else 0) ↔
      ∀ error, result = .error error → error.wrapsClosing = false := by
  cases result with
  | ok value => simp [requestsFor, Desk.kindOf]
  | error error =>
      cases error <;> simp [requestsFor, Desk.kindOf, CallError.kind, CallError.wrapsClosing]

/-! ## Lines and their requests -/

/-- A line has been used, and its resolver was asked a number of times. -/
def Asked (l : Line) (asks : Nat) (l' : Line) : Prop :=
  ∃ breaker metrics, l' = l.after breaker asks metrics

theorem Asked.refl (l : Line) : l.Asked 0 l :=
  ⟨l.breaker, l.exchange.shared.metrics, l.after_self.symm⟩

theorem Asked.trans {l l' l'' : Line} {first second : Nat} (h : l.Asked first l')
    (h' : l'.Asked second l'') : l.Asked (first + second) l'' := by
  obtain ⟨breaker, metrics, rfl⟩ := h
  obtain ⟨breaker', metrics', rfl⟩ := h'
  exact ⟨breaker', metrics', l.after_after breaker breaker' first second metrics metrics'⟩

theorem asked_withDesk (l : Line) (d : Desk) : l.Asked 0 (l.withDesk d) :=
  ⟨d.breaker, d.metrics, l.withDesk_eq d⟩

theorem asked_enter (l : Line) : l.Asked 0 l.enter.1 :=
  l.asked_withDesk _

theorem asked_leave (l : Line) (generation : UInt64) (outcome : Outcome) :
    l.Asked 0 (l.leave generation outcome).1 :=
  l.asked_withDesk _

theorem asked_abandon (l : Line) (generation : UInt64) : l.Asked 0 (l.abandon generation) :=
  l.asked_withDesk _

theorem asked_heed (l : Line) (result : CallResult) :
    l.Asked (requestsFor result) (l.heed result) :=
  ⟨_, _, l.heed_eq result⟩

theorem asked_schedule (l : Line) (delay : Duration) : l.Asked 0 (l.schedule delay).1 :=
  ⟨_, _, l.schedule_eq delay⟩

end Line

/-! ## One step of a call -/

namespace Line

/-- How many requests the end of an attempt brings about: those of the result that it ends with. -/
def requestsAt (l : Line) (generation : UInt64) (outcome : Outcome) : Nat :=
  match (l.leave generation outcome).2 with
  | .result result => requestsFor result
  | .raised | .stalled => 0

/-- An attempt ends with the result that it came to. -/
theorem outcome_of_leave {l : Line} (h : l.callbacks.Usual) {generation : UInt64}
    {outcome : Outcome} {result : CallResult}
    (hends : (l.leave generation outcome).2 = .result result) : outcome = .returns result := by
  have hending := Desk.leave_ending h l.desk l.now generation outcome
  rw [show (l.desk.leave l.callbacks l.now generation outcome).2 = _ from hends] at hending
  split at hending <;> simp_all

end Line

namespace Call

variable {c : Call} {l : Line}

/-- How often an attempt that runs asks for fresh addresses, if it ends now. -/
def endingRequests (work : Attempt) (l : Line) : Nat :=
  match work.ending? l with
  | some outcome => l.requestsAt work.generation outcome
  | none => 0

/-- How often the next step of a call asks for fresh addresses. -/
def requests (c : Call) (l : Line) : Nat :=
  if l.isCancelled then 0
  else
    match c.phase with
    | .ready _ =>
      match l.enter.2 with
      | .passed generation => endingRequests (c.attempt l generation) l.enter.1
      | _ => 0
    | .running _ work => endingRequests work l
    | _ => 0

/-- How often a call that has ended like this has asked for fresh addresses. -/
def requested (c : Call) : Nat :=
  match c.phase with
  | .over result => Line.requestsFor result
  | _ => 0

theorem requested_of_phase (h : ∀ result, c.phase ≠ .over result) : c.requested = 0 := by
  unfold requested
  split
  · exact absurd ‹_› (h _)
  · rfl

theorem requested_cases (c : Call) : c.requested ≤ 1 ∧
    (c.requested = 1 ↔ ∃ reason, c.phase = .over (.error (.transportClosing reason))) := by
  by_cases hover : ∃ result, c.phase = .over result
  · obtain ⟨result, hphase⟩ := hover
    simp only [requested, hphase, CallPhase.over.injEq]
    exact Line.requestsFor_cases result
  · have hnone := requested_of_phase (not_exists.mp hover)
    rw [hnone]
    refine ⟨Nat.zero_le 1, fun h => (by cases h), ?_⟩
    rintro ⟨reason, hphase⟩
    exact absurd ⟨_, hphase⟩ hover

/-- A call ends with the very error of its attempt, or the kind of that error is not terminal and
what the call ends with is not either. -/
theorem continueAfter_cases {p p' : RetryPolicy} {attempt : UInt32} {error : CallError}
    {continuation : RetryPolicy.Continuation}
    (h : p.continueAfter attempt error = (continuation, p')) :
    continuation = .giveUp error ∨ error.kind.isTerminal = false ∧
      ∀ last, continuation = .giveUp last → last.kind.isTerminal = false := by
  cases hterminal : error.kind.isTerminal with
  | true =>
      rw [RetryPolicy.continueAfter_of_terminal hterminal] at h
      cases h
      exact .inl rfl
  | false =>
      unfold RetryPolicy.continueAfter at h
      split at h
      · cases h
        exact .inr ⟨rfl, fun last hlast => by cases hlast⟩
      · cases h
        refine .inr ⟨rfl, fun last hlast => ?_⟩
        cases hlast
        exact hterminal
      · cases h
        exact .inl rfl

theorem settle_requested (c : Call) (l : Line) (number : UInt32) (result : CallResult) :
    (c.settle l number result).1.requested = Line.requestsFor result ∧
      l.Asked 0 (c.settle l number result).2 := by
  cases result with
  | ok value => exact ⟨rfl, .refl l⟩
  | error error =>
      unfold settle
      dsimp only
      rcases hcontinue : c.policy.continueAfter number error with ⟨continuation, policy⟩
      obtain rfl | ⟨hterminal, hlast⟩ := continueAfter_cases hcontinue
      · exact ⟨rfl, .refl l⟩
      · have hnone := Line.requestsFor_of_not_terminal hterminal
        cases continuation with
        | pause delay => exact ⟨hnone.symm, l.asked_schedule delay⟩
        | giveUp last =>
            exact ⟨(Line.requestsFor_of_not_terminal (hlast last rfl)).trans hnone.symm, .refl l⟩

theorem conclude_requested (c : Call) (l : Line) (number : UInt32) (work : Attempt)
    (outcome : Outcome) :
    (c.conclude l number work outcome).1.requested = l.requestsAt work.generation outcome ∧
      l.Asked (l.requestsAt work.generation outcome) (c.conclude l number work outcome).2 := by
  have hleft := l.asked_leave work.generation outcome
  unfold conclude Line.requestsAt
  generalize l.leave work.generation outcome = left at hleft ⊢
  obtain ⟨l', ending⟩ := left
  cases ending with
  | result result =>
      obtain ⟨hrequested, hsettles⟩ := settle_requested c (l'.heed result) number result
      have hasked := (hleft.trans (l'.asked_heed result)).trans hsettles
      rw [Nat.zero_add] at hasked
      exact ⟨hrequested, hasked⟩
  | raised => exact ⟨rfl, hleft⟩
  | stalled => exact ⟨rfl, hleft⟩

theorem proceed_requested (c : Call) (l : Line) (number : UInt32) (work : Attempt) :
    (c.proceed l number work).1.requested = endingRequests work l ∧
      l.Asked (endingRequests work l) (c.proceed l number work).2 := by
  rw [proceed_eq]
  unfold endingRequests
  cases hends : work.ending? l with
  | none => exact ⟨rfl, .refl l⟩
  | some outcome => exact conclude_requested c l number work outcome

theorem make_requested (h : l.callbacks.Usual) {number : UInt32} (hphase : c.phase = .ready number)
    (hgoes : l.isCancelled = false) :
    (c.make l number).1.requested = c.requests l ∧ l.Asked (c.requests l) (c.make l number).2 := by
  unfold requests
  simp only [hgoes, hphase, Bool.false_eq_true, if_false]
  cases henter : l.enter.2 with
  | raised => exact absurd henter (enter_not_raised h)
  | rejected error =>
      have hnone : Line.requestsFor (.error error) = 0 := by
        rcases Desk.error_of_rejected henter with rfl | rfl <;> rfl
      rw [make_of_rejected henter]
      exact ⟨hnone, l.asked_enter⟩
  | passed generation =>
      obtain ⟨hrequested, hasked⟩ := proceed_requested (c.board l number generation) l.enter.1
        number (c.attempt l generation)
      rw [make_of_passed henter]
      have hall := l.asked_enter.trans hasked
      rw [Nat.zero_add] at hall
      exact ⟨hrequested, hall⟩

/-- **A call asks in the step in which it ends, and by the result that it ends with.** -/
theorem step_requested (h : l.callbacks.Usual) (c : Call) :
    (c.step l).1.requested = c.requested + c.requests l ∧
      l.Asked (c.requests l) (c.step l).2 := by
  cases hcancelled : l.isCancelled with
  | true =>
      unfold requests step cancel
      simp only [hcancelled, if_true]
      cases hphase : c.phase with
      | running number work =>
          rw [requested_of_phase (c := c) (by simp [hphase])]
          exact ⟨rfl, l.asked_abandon work.generation⟩
      | ready number =>
          rw [requested_of_phase (c := c) (by simp [hphase])]
          exact ⟨rfl, .refl l⟩
      | pausing resume number =>
          rw [requested_of_phase (c := c) (by simp [hphase])]
          exact ⟨rfl, .refl l⟩
      | _ => exact ⟨rfl, .refl l⟩
  | false =>
      unfold step
      simp only [hcancelled, Bool.false_eq_true, if_false]
      cases hphase : c.phase with
      | ready number =>
          rw [requested_of_phase (c := c) (by simp [hphase]), Nat.zero_add]
          exact make_requested h hphase hcancelled
      | running number work =>
          have hrequests : c.requests l = endingRequests work l := by
            simp [requests, hcancelled, hphase]
          rw [requested_of_phase (c := c) (by simp [hphase]), Nat.zero_add, hrequests]
          exact proceed_requested c l number work
      | pausing resume number =>
          have hrequests : c.requests l = 0 := by simp [requests, hcancelled, hphase]
          rw [requested_of_phase (c := c) (by simp [hphase]), hrequests]
          dsimp only
          split
          · exact ⟨rfl, .refl l⟩
          · exact ⟨requested_of_phase (by simp [hphase]), .refl l⟩
      | _ =>
          have hrequests : c.requests l = 0 := by simp [requests, hcancelled, hphase]
          rw [hrequests]
          exact ⟨rfl, .refl l⟩

/-! ## Where a closing comes from -/

/-- The operation has given this error. -/
def Gave (c : Call) (error : CallError) : Prop :=
  ∃ i < c.made, (c.operation i).outcome = .returns (.error error)

/-- Every closing that a call has met was given by its operation. -/
structure Given (c : Call) : Prop where
  running : ∀ number work, c.phase = .running number work →
    ∃ i < c.made, work.outcome = (c.operation i).outcome
  met : ∀ error, c.phase = .over (.error error) → error.kind = .transportClosing → c.Gave error

/-- A call that runs nothing and has met no closing. -/
theorem given_of_phase (h : match c.phase with
    | .running _ _ => False
    | .over (.error error) => error.kind ≠ .transportClosing
    | _ => True) : c.Given := by
  refine ⟨fun _ _ hphase => ?_, fun error hphase hkind => ?_⟩
  · rw [hphase] at h
    exact h.elim
  · rw [hphase] at h
    exact absurd hkind h

theorem given_start (operation : Operation) (p : RetryPolicy) : (start operation p).Given :=
  given_of_phase trivial

theorem settle_given (c : Call) (l : Line) (number : UInt32) {result : CallResult}
    (h : ∀ error, result = .error error → error.kind = .transportClosing → c.Gave error) :
    (c.settle l number result).1.Given := by
  cases result with
  | ok value => exact given_of_phase trivial
  | error error =>
      unfold settle
      dsimp only
      rcases hcontinue : c.policy.continueAfter number error with ⟨continuation, policy⟩
      obtain rfl | ⟨-, hlast⟩ := continueAfter_cases hcontinue
      · refine ⟨fun _ _ hphase => ?_, fun last hphase hkind => ?_⟩
        · cases hphase
        · cases hphase
          exact h error rfl hkind
      · cases continuation with
        | pause delay => exact given_of_phase trivial
        | giveUp last =>
            refine given_of_phase fun hkind => ?_
            have hterminal := hlast last rfl
            rw [hkind] at hterminal
            cases hterminal

theorem conclude_given (h : l.callbacks.Usual) (c : Call) (number : UInt32) (work : Attempt)
    {outcome : Outcome} (hgave : ∀ error, outcome = .returns (.error error) →
      error.kind = .transportClosing → c.Gave error) :
    (c.conclude l number work outcome).1.Given := by
  have hends (result : CallResult) (hresult : (l.leave work.generation outcome).2 = .result result) :=
    Line.outcome_of_leave h hresult
  unfold conclude
  generalize l.leave work.generation outcome = left at hends ⊢
  obtain ⟨l', ending⟩ := left
  cases ending with
  | result result =>
      exact settle_given c _ number fun error hresult => hgave error (hresult ▸ hends result rfl)
  | raised => exact given_of_phase trivial
  | stalled => exact given_of_phase trivial

theorem proceed_given (h : l.callbacks.Usual) (c : Call) (number : UInt32) {work : Attempt}
    (hwork : ∃ i < c.made, work.outcome = (c.operation i).outcome) :
    (c.proceed l number work).1.Given := by
  rw [proceed_eq]
  cases hends : work.ending? l with
  | none =>
      refine ⟨fun _ _ hphase => ?_, fun _ hphase => ?_⟩
      · cases hphase
        exact hwork
      · cases hphase
  | some outcome =>
      refine conclude_given h c number work fun error houtcome hkind => ?_
      obtain ⟨t, -, -, hown⟩ | ⟨-, t, -, -, htimeout⟩ := Attempt.ending?_cases hends
      · obtain ⟨i, hlt, hgiven⟩ := hwork
        exact ⟨i, hlt, by rw [← hgiven, ← hown, houtcome]⟩
      · -- a timeout is no closing
        cases htimeout.symm.trans houtcome
        cases hkind

theorem make_given (h : l.callbacks.Usual) (c : Call) (number : UInt32) :
    (c.make l number).1.Given := by
  cases henter : l.enter.2 with
  | raised => exact absurd henter (enter_not_raised h)
  | rejected error =>
      rw [make_of_rejected henter]
      refine given_of_phase fun hkind => ?_
      rcases Desk.error_of_rejected henter with rfl | rfl <;> cases hkind
  | passed generation =>
      have husual : l.enter.1.callbacks.Usual := l.enter_keeps.callbacks ▸ h
      rw [make_of_passed henter]
      exact proceed_given husual (c.board l number generation) number
        ⟨c.made, Nat.lt_succ_self c.made, rfl⟩

theorem Given.cancel (h : c.Given) (l : Line) : (c.cancel l).1.Given := by
  have hcancelled (made : Nat) (l : Line) :
      ({ c with made }.finish l (.over (.error .cancelled))).Given :=
    given_of_phase fun hkind => by cases hkind
  unfold Call.cancel
  cases hphase : c.phase with
  | ready number => exact hcancelled (c.made + 1) l
  | running number work => exact hcancelled c.made _
  | pausing resume number => exact hcancelled c.made l
  | _ => exact h

theorem Given.step (h : c.Given) (husual : l.callbacks.Usual) : (c.step l).1.Given := by
  unfold Call.step
  split
  · exact h.cancel l
  · cases hphase : c.phase with
    | ready number => exact make_given husual c number
    | running number work => exact proceed_given husual c number (h.running number work hphase)
    | pausing resume number =>
        dsimp only
        split
        · exact given_of_phase trivial
        · exact h
    | _ => exact h

end Call

/-! ## A run -/

namespace Switchboard

open Call

variable {s : Switchboard} {asked : Nat → Nat}

/-- How often a session asks for fresh addresses in one happening. -/
def requests (s : Switchboard) (n : Nat) : Happening → Nat
  | .go m =>
    match s.sessions[m]? with
    | some ⟨c, false⟩ => if m = n then c.requests s.line else 0
    | _ => 0
  | _ => 0

/-- The same in a number of happenings, one after the other. -/
def requestsIn (n : Nat) : Switchboard → List Happening → Nat
  | _, [] => 0
  | s, x :: later => s.requests n x + requestsIn n (s.step x) later

/-- Each session has asked as often as its result says, and that was given by its operation. -/
structure Heeded (s : Switchboard) (asked : Nat → Nat) : Prop where
  usual : s.line.callbacks.Usual
  sessions : ∀ (n : Nat) (session : Session), s.sessions[n]? = some session →
    asked n = session.call.requested ∧ session.call.Given
  beyond : ∀ n, s.sessions.length ≤ n → asked n = 0

theorem Heeded.aside (h : s.Heeded asked) {s' : Switchboard}
    (hcallbacks : s'.line.callbacks = s.line.callbacks) (hsessions : s'.sessions = s.sessions) :
    s'.Heeded asked :=
  ⟨hcallbacks ▸ h.usual, hsessions ▸ h.sessions, hsessions ▸ h.beyond⟩

theorem Heeded.go (h : s.Heeded asked) (m : Nat) :
    (s.go m).Heeded (fun n => asked n + s.requests n (.go m)) ∧
      s.line.Asked (s.requests m (.go m)) (s.go m).line := by
  by_cases hm : ∃ c, s.sessions[m]? = some ⟨c, false⟩
  · obtain ⟨c, hm⟩ := hm
    have hlt : m < s.sessions.length := (List.getElem?_eq_some_iff.mp hm).1
    obtain ⟨hrequested, hasked⟩ := step_requested h.usual c
    obtain ⟨hself, hgiven⟩ := h.sessions m _ hm
    simp only [Switchboard.go, requests, hm, if_true]
    refine ⟨⟨(c.step_went s.line h.usual).keeps.callbacks ▸ h.usual, ?_, ?_⟩, hasked⟩
    · intro n session hn
      obtain ⟨rfl, rfl⟩ | ⟨hne, hn⟩ := session_set hn
      · simp only [if_true]
        exact ⟨by rw [hself, hrequested], hgiven.step h.usual⟩
      · simp only [hne, if_false, Nat.add_zero]
        exact h.sessions n session hn
    · intro n hn
      rw [List.length_set] at hn
      have hne : m ≠ n := by omega
      simp only [hne, if_false, Nat.add_zero]
      exact h.beyond n hn
  · -- there is no such session, or it was dropped
    have hidle : s.go m = s ∧ ∀ n, s.requests n (.go m) = 0 := by
      rcases hsession : s.sessions[m]? with _ | ⟨c, _ | _⟩
      · simp [Switchboard.go, requests, hsession]
      · exact absurd ⟨c, hsession⟩ hm
      · simp [Switchboard.go, requests, hsession]
    simp only [hidle.1, hidle.2, Nat.add_zero]
    exact ⟨h, .refl s.line⟩

theorem Heeded.drop (h : s.Heeded asked) (m : Nat) :
    (s.drop m).Heeded asked ∧ s.line.Asked 0 (s.drop m).line := by
  unfold Switchboard.drop
  split
  · rename_i c hm
    have hasked : s.line.Asked 0 (c.abandon s.line) ∧
        (c.abandon s.line).callbacks = s.line.callbacks := by
      unfold Call.abandon
      split
      · exact ⟨s.line.asked_abandon _, (s.line.abandon_keeps _).callbacks⟩
      · exact ⟨.refl s.line, rfl⟩
    refine ⟨⟨hasked.2 ▸ h.usual, ?_, ?_⟩, hasked.1⟩
    · intro n session hn
      obtain ⟨rfl, rfl⟩ | ⟨-, hn⟩ := session_set hn
      · exact h.sessions m ⟨c, false⟩ hm
      · exact h.sessions n session hn
    · intro n hn
      rw [List.length_set] at hn
      exact h.beyond n hn
  · exact ⟨h, .refl s.line⟩

theorem Heeded.place (h : s.Heeded asked) (operation : Operation) :
    (s.step (.place operation)).Heeded asked := by
  refine ⟨h.usual, ?_, ?_⟩
  · intro n session hn
    obtain hn | ⟨rfl, rfl⟩ := session_placed hn
    · exact h.sessions n session hn
    · exact ⟨h.beyond _ (Nat.le_refl _), given_start operation s.line.connection.policy⟩
  · exact fun n hn => h.beyond n (Nat.le_trans (List.prefix_append s.sessions _).length_le hn)

theorem Heeded.step (h : s.Heeded asked) (x : Happening) :
    (s.step x).Heeded (fun n => asked n + s.requests n x) := by
  cases x with
  | place operation => exact h.place operation
  | go m => exact (h.go m).1
  | drop m => exact (h.drop m).1
  | observe => exact h.aside s.line.observe_keeps.callbacks rfl
  | elapse now =>
      refine Heeded.aside h ?_ ?_ <;>
        · unfold Switchboard.step
          dsimp only
          split <;> rfl
  | elsewhere exchange => exact h.aside rfl rfl

theorem Heeded.foldl (h : s.Heeded asked) (happenings : List Happening) :
    (happenings.foldl Switchboard.step s).Heeded
      (fun n => asked n + requestsIn n s happenings) := by
  -- the requests so far are generalised, as each step adds its own to them
  induction happenings generalizing s asked with
  | nil => exact h
  | cons x later ih =>
      have hlater := ih (h.step x)
      simp only [Nat.add_assoc] at hlater
      exact hlater

theorem heeded_run {l : Line} (h : l.callbacks.Usual) (happenings : List Happening) :
    (run l happenings).Heeded (fun n => requestsIn n (ofLine l) happenings) := by
  have hstart : (ofLine l).Heeded (fun _ => 0) := by
    refine ⟨h, ?_, fun _ _ => rfl⟩
    intro n session hn
    cases hn
  have hrun := hstart.foldl happenings
  simp only [Nat.zero_add] at hrun
  exact hrun

/-- **A closing asks for fresh addresses once, unless it is wrapped.** On any connection, with any
calls on it, whatever they run and whatever else happens:

* A step of a session asks its resolver as often as is counted, and dropping it does not.
* A session asks at most once, and it has asked exactly if it has ended with the error that the
  transport is closing.
* So it has asked as the kind of its result would have it exactly if the result is no closing
  within an exhausted session; and always, if its operation never gives such an error.
* A closing that it has ended with, wrapped or not, is what its operation gave. -/
theorem renewal_of_closing (connector : Connector) (connection : Connection)
    (happenings : List Happening) :
    let l := connector.line connection
    let s := run l happenings
    let asked (n : Nat) := requestsIn n (ofLine l) happenings
    (∀ n, s.line.Asked (s.requests n (.go n)) (s.step (.go n)).line ∧
      s.line.Asked 0 (s.step (.drop n)).line) ∧
    ∀ (n : Nat) (session : Session), s.sessions[n]? = some session →
      (asked n ≤ 1 ∧ (asked n = 1 ↔
        ∃ reason, session.call.phase = .over (.error (.transportClosing reason)))) ∧
      (∀ result, session.call.phase = .over result →
        let due := if Desk.kindOf result = some .transportClosing then 1 else 0
        (asked n = due ↔ ∀ error, result = .error error → error.wrapsClosing = false) ∧
          ((∀ i error, (session.call.operation i).outcome = .returns (.error error) →
            error.wrapsClosing = false) → asked n = due)) ∧
      ∀ error, session.call.phase = .over (.error error) → error.kind = .transportClosing →
        ∃ i < session.call.made,
          (session.call.operation i).outcome = .returns (.error error) := by
  intro l s asked
  have h : s.Heeded asked :=
    heeded_run (BreakerCallbacks.usual_ofConfig connector.config.breaker) happenings
  refine ⟨fun n => ⟨(h.go n).2, (h.drop n).2⟩, fun n session hn => ?_⟩
  obtain ⟨hasked, hgiven⟩ := h.sessions n session hn
  refine ⟨?_, fun result hover => ?_, hgiven.met⟩
  · rw [hasked]
    exact session.call.requested_cases
  · have hdue := Line.requestsFor_eq_due_iff result
    have hresult : asked n = Line.requestsFor result := by
      rw [hasked, Call.requested, hover]
    rw [← hresult] at hdue
    refine ⟨hdue, fun hplain => hdue.mpr ?_⟩
    rintro error rfl
    refine Bool.eq_false_iff.mpr fun hwraps => ?_
    have hkind := (error.kind_eq_transportClosing_iff).mpr (.inr hwraps)
    obtain ⟨i, -, hgave⟩ := hgiven.met error hover hkind
    exact absurd hwraps (by simp [hplain i error hgave])

/-- A line whose resolver waits for a request. -/
def attended : Line :=
  let a : Assignment := ⟨"svc:80", "svc", "80", .standard, .ofSecs 5⟩
  let l := quiet.line { fixed with resolver := some 0 }
  { l with exchange := { l.exchange with watches := [⟨0, a, ⟨[0]⟩, 0, .parked, false⟩] } }

/-- A call fails at its first attempt, with an error of its operation. -/
def failing (error : CallError) : List Happening :=
  [.place fun _ => .immediate (.error error), .go 0]

/-- The call ends with an error whose kind says that the transport is closing, and its resolver goes
on waiting. -/
theorem wrapped_closing_unheeded :
    let wrapped : CallError := .retriesExhausted 1 (.transportClosing "x")
    let s := run attended (failing wrapped)
    wrapped.kind = .transportClosing ∧
      s.sessions.map (·.call.phase) = [.over (.error wrapped)] ∧
      requestsIn 0 (ofLine attended) (failing wrapped) = 0 ∧
      s.line.exchange.watches = attended.exchange.watches :=
  ⟨rfl, rfl, rfl, rfl⟩

/-- A plain closing calls the resolver. -/
example : (run attended (failing (.transportClosing "x"))).line.exchange.watches.map (·.phase) =
    [.called] := rfl

theorem renewal_of_closing_plain :
    let closing : CallError := .transportClosing "x"
    let s := run (quiet.line fixed) (failing closing)
    ∃ session, s.sessions[0]? = some session ∧ session.call.phase = .over (.error closing) ∧
      requestsIn 0 (ofLine (quiet.line fixed)) (failing closing) = 1 := by
  intro closing s
  obtain ⟨-, hsessions⟩ := renewal_of_closing quiet fixed (failing closing)
  obtain ⟨⟨-, hasked⟩, -⟩ := hsessions 0 _ rfl
  exact ⟨_, rfl, rfl, hasked.mpr ⟨"x", rfl⟩⟩

end Switchboard

end Dialer
