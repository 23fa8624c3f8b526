import Dialer.Proofs.Call.Steps

/-!
# Concurrent calls on one connection

A switchboard is a connection in use with the calls that were begun on it. Its calls share the
line and go on one at a time, in any order; each step is a step of the call (`Call.step`), and a
call can be dropped at any moment. Between the steps the state may be asked for, time passes, and
anything may happen to the rest: resolution, other connections, metrics, cancellation. Time does
not pass an instant at which a call can go on by itself.

The log takes down what the calls do at the breaker: the traffic there, the attempts that were
let pass and what they run (`Ticket`), and what the breaker was told of them (`Report`). It has no
influence on the calls.
-/

namespace Dialer

/-- An attempt that was let pass. -/
structure Ticket where
  /-- The number of the session it belongs to. -/
  session : Nat
  /-- How often the session had invoked its operation before. -/
  invocation : Nat
  /-- What the operation gave. -/
  behaviour : Behaviour
  pass : Pass

/-- What the breaker was told of an attempt. -/
structure Report where
  ticket : Ticket
  /-- How the attempt ended, if it was not dropped. -/
  outcome : Option Outcome
  time : Nat

/-- A dropped attempt has failed. -/
def Report.success (r : Report) : Bool :=
  match r.outcome with
  | some outcome => outcome.succeeds
  | none => false

/-- What the calls have done at the breaker; every list has the latest first. -/
structure Logbook where
  traffic : Traffic
  tickets : List Ticket
  reports : List Report

namespace Logbook

/-- The attempts of a session that were let pass. -/
def ticketsOf (b : Logbook) (n : Nat) : List Ticket :=
  b.tickets.filter (·.session = n)

/-- An act at the breaker, under the callbacks of a line. -/
def act (b : Logbook) (l : Line) (act : Act) : Logbook :=
  { b with traffic := b.traffic.step ⟨l.now, l.callbacks, act⟩ }

/-- Takes down a deed of a session. Only an attempt that was let pass can end. -/
def enact (l : Line) (n : Nat) (b : Logbook) : Call.Deed → Logbook
  | .refused => b.act l .enter
  | .boards generation invocation behaviour =>
    let pass := (b.traffic.turn l.now).nextPass l.now generation
    { b.act l .enter with tickets := ⟨n, invocation, behaviour, pass⟩ :: b.tickets }
  | .tells outcome =>
    match b.ticketsOf n with
    | [] => b
    | k :: _ =>
      { b.act l (.leave k.pass.number outcome) with
        reports := ⟨k, some outcome, l.now⟩ :: b.reports }
  | .drops =>
    match b.ticketsOf n with
    | [] => b
    | k :: _ =>
      { b.act l (.drop k.pass.number) with reports := ⟨k, none, l.now⟩ :: b.reports }

theorem enact_congr {l l' : Line} (h : l.Keeps l') (n : Nat) (b : Logbook) (deed : Call.Deed) :
    b.enact l' n deed = b.enact l n deed := by
  unfold enact act
  rw [h.now, h.callbacks]

end Logbook

/-- A call on a switchboard, whose future may have been dropped. -/
structure Session where
  call : Call
  dropped : Bool

/-- The instants at which a session can go on by itself. -/
def Session.wakes (session : Session) : List Nat :=
  if session.dropped then [] else session.call.wakes

/-- A connection in use, with the sessions on it. -/
structure Switchboard where
  line : Line
  sessions : List Session
  log : Logbook

/-- What can happen. -/
inductive Happening where
  /-- A session begins. -/
  | place (operation : Operation)
  /-- A session goes on. -/
  | go (n : Nat)
  /-- A session is dropped. -/
  | drop (n : Nat)
  /-- Someone asks for the state of the circuit. -/
  | observe
  /-- Time passes, to the given instant. -/
  | elapse (now : Nat)
  /-- Anything happens to what the connection shares with others. -/
  | elsewhere (exchange : Resolver.Exchange)

namespace Switchboard

/-- A line without calls. Generations are counted from the one its breaker is in. -/
def ofLine (l : Line) : Switchboard :=
  ⟨l, [], ⟨l.desk, l.breaker.generation.toNat, [], [], [], [], []⟩, [], []⟩

/-- The instants at which sessions can go on by themselves. -/
def wakes (s : Switchboard) : List Nat :=
  s.sessions.flatMap Session.wakes

/-- The exchange at an instant. -/
def share (s : Switchboard) (x : Resolver.Exchange) (now : Nat) : Switchboard :=
  { s with line := { s.line with exchange := x.apply fun shared => { shared with now } } }

/-- The next step of a session. -/
def go (s : Switchboard) (n : Nat) : Switchboard :=
  match s.sessions[n]? with
  | some ⟨call, false⟩ =>
    let (next, line) := call.step s.line
    ⟨line, s.sessions.set n ⟨next, false⟩, (call.deeds s.line).foldl (·.enact s.line n ·) s.log⟩
  | _ => s

/-- Drops a session, with the attempt that runs. -/
def drop (s : Switchboard) (n : Nat) : Switchboard :=
  match s.sessions[n]? with
  | some ⟨call, false⟩ =>
    let log :=
      match call.phase with
      | .running _ _ => s.log.enact s.line n .drops
      | _ => s.log
    ⟨call.abandon s.line, s.sessions.set n ⟨call, true⟩, log⟩
  | _ => s

def step (s : Switchboard) : Happening → Switchboard
  | .place operation =>
    { s with sessions := s.sessions ++ [⟨.start operation s.line.connection.policy, false⟩] }
  | .go n => s.go n
  | .drop n => s.drop n
  | .observe => { s with line := s.line.observe.1, log := s.log.act s.line .observe }
  | .elapse now =>
    if s.line.now ≤ now ∧ ∀ t ∈ s.wakes, now ≤ t then s.share s.line.exchange now else s
  | .elsewhere x => s.share x s.line.now

/-- What happens to a line, one thing after the other. -/
def run (l : Line) (happenings : List Happening) : Switchboard :=
  happenings.foldl step (ofLine l)

/-! ## Which session it is -/

section

variable {sessions : List Session} {session next : Session} {m n : Nat}

/-- Where one session was put, each is that one or as it was. -/
theorem session_set (h : (sessions.set m next)[n]? = some session) :
    m = n ∧ session = next ∨ m ≠ n ∧ sessions[n]? = some session := by
  by_cases hm : m = n
  · subst hm
    have hlt : m < (sessions.set m next).length := (List.getElem?_eq_some_iff.mp h).1
    rw [List.length_set] at hlt
    exact .inl ⟨rfl, Option.some.inj (h.symm.trans (List.getElem?_set_self hlt))⟩
  · rw [List.getElem?_set_ne hm] at h
    exact .inr ⟨hm, h⟩

/-- Where one session was added, each was there or is that one. -/
theorem session_placed (h : (sessions ++ [next])[n]? = some session) :
    sessions[n]? = some session ∨ n = sessions.length ∧ session = next := by
  have hlt : n < (sessions ++ [next]).length := (List.getElem?_eq_some_iff.mp h).1
  rw [List.length_append, List.length_singleton] at hlt
  by_cases hold : n < sessions.length
  · exact .inl ((List.getElem?_append_left hold).symm.trans h)
  · obtain rfl : n = sessions.length := by omega
    exact .inr ⟨rfl, Option.some.inj (h.symm.trans List.getElem?_concat_length)⟩

end

/-! ## Groups of calls -/

theorem go_at {s : Switchboard} {c : Call} {before after : List Session}
    (hs : s.sessions = before ++ ⟨c, false⟩ :: after) :
    (s.go before.length).line = (c.step s.line).2 ∧
      (s.go before.length).sessions = before ++ ⟨(c.step s.line).1, false⟩ :: after := by
  simp [go, hs]

/-- What it takes to let each session of a row go on as far as it can. -/
def turns (first count : Nat) : List Happening :=
  (List.range' first count).flatMap fun n => [.go n, .go n]

/-- **A group of calls goes on as the sessions of a switchboard do.** -/
theorem foldl_turns (calls : List Call) {s : Switchboard} {before : List Session}
    (hs : s.sessions = before ++ calls.map (⟨·, false⟩)) :
    let s' := (turns before.length calls.length).foldl step s
    s'.line = (Call.goOnAll calls s.line).2 ∧
      s'.sessions = before ++ (Call.goOnAll calls s.line).1.map (⟨·, false⟩) := by
  induction calls generalizing s before with
  | nil => exact ⟨rfl, hs⟩
  | cons c rest ih =>
      obtain ⟨hline, hsessions⟩ := go_at hs
      obtain ⟨hline', hsessions'⟩ := go_at hsessions
      have hrow : ((s.go before.length).go before.length).sessions =
          (before ++ [⟨(c.goOn s.line).1, false⟩]) ++ rest.map (⟨·, false⟩) := by
        rw [hsessions', hline, List.append_assoc]
        rfl
      obtain ⟨hlast, hall⟩ := ih hrow
      have hgroup : ((s.go before.length).go before.length).line = (c.goOn s.line).2 := by
        rw [hline', hline]
        rfl
      rw [hgroup, List.length_append, List.length_singleton] at hlast hall
      refine ⟨hlast, hall.trans ?_⟩
      rw [List.append_assoc]
      rfl

end Switchboard

end Dialer
