import Dialer.Retry.Session

/-!
# A retry session as it is polled

A session is run by polls. At each poll it looks at its token first, and only if this has not been
cancelled at what it waits for: the future of an attempt, which is polled then, or the end of a
pause. A poll may come at any instant, also when nothing has happened; what is not over waits for
the next one.

`Future.advance` is one such look, and what it leads to. The end of a pause and the attempt behind
it are two of them at one instant. A session in steps (`Session.step`) is a future that is polled
at the instants at which it is woken (`Session.wakes`).
-/

namespace Dialer.Retry

/-- What a session does with the futures of its operation, which are numbered from zero. -/
inductive Deed where
  /-- Invokes the operation, which makes a future and runs nothing of it. -/
  | invokes (index : Nat)
  | polls (index : Nat)
  /-- Drops a future before it was ready. -/
  | drops (index : Nat)
deriving DecidableEq

/-- The future of an attempt, which is held while it is pending. -/
structure Held where
  /-- The number that the policy has for the attempt. -/
  attempt : UInt32
  index : Nat
  since : Nat
deriving DecidableEq

/-- What the future of an attempt answers to a poll, if it is ready. -/
def Held.ready? (h : Held) (operation : Operation) (now : Nat) : Option Outcome :=
  match (operation h.index).endsAt h.since with
  | some time => if time ≤ now then some (operation h.index).outcome else none
  | none => none

/-- A session between two polls. -/
structure Future where
  session : Session
  held : Option Held
  /-- What it has done, and when; the latest first. -/
  deeds : List (Nat × Deed)

namespace Future

/-- A session that has not been polled yet, with its policy as it is. -/
def startWith (policy : RetryPolicy) (now : Nat) : Future :=
  ⟨.startWith policy now, none, []⟩

/-- Waits for an attempt, unless the token has been cancelled. -/
def await (c : Conditions) (f : Future) (h : Held) (now : Nat) (cancelled : Bool) : Future :=
  if cancelled then
    ⟨f.session.finish (.done (.error .cancelled)) now, none, (now, .drops h.index) :: f.deeds⟩
  else
    let deeds := (now, .polls h.index) :: f.deeds
    match h.ready? c.operation now with
    | some outcome => ⟨f.session.settle c h.attempt outcome now, none, deeds⟩
    | none => ⟨f.session, some h, deeds⟩

/-- Makes an attempt: the operation is invoked before the token is looked at. -/
def make (c : Conditions) (f : Future) (attempt : UInt32) (now : Nat) (cancelled : Bool) :
    Future :=
  let index := f.session.invoked.length
  let f : Future :=
    ⟨{ f.session with now, invoked := now :: f.session.invoked }, none,
      (now, .invokes index) :: f.deeds⟩
  f.await c ⟨attempt, index, now⟩ now cancelled

/-- Looks once at what it waits for; `cancelled` tells whether the token is by now. -/
def advance (c : Conditions) (f : Future) (now : Nat) (cancelled : Bool) : Future :=
  match f.held with
  | some h => f.await c h now cancelled
  | none =>
    match f.session.phase with
    | .ready attempt => f.make c attempt now cancelled
    | .pausing resume attempt =>
      if cancelled then
        { f with session := f.session.finish (.done (.error .cancelled)) now }
      else if resume ≤ now then
        { f with session := f.session.finish (.ready attempt) now }
      else f
    | _ => f

/-- Looks at given instants, each time with the token as it is then. -/
def polled (c : Conditions) (f : Future) (polls : List (Nat × Bool)) : Future :=
  polls.foldl (fun f poll => f.advance c poll.1 poll.2) f

end Future

/-- The instant at which a wait is over, if the observer is still there. -/
def Wake.time? : Wake → Option Nat
  | .due time | .cancelled time => some time
  | .left _ => none

/-- The instants at which a session is polled in its next step: at once if it makes an attempt,
and when the wait that follows is over. -/
def Session.wakes (c : Conditions) (s : Session) : List Nat :=
  match s.phase with
  | .ready _ =>
    let ends := (c.operation s.invoked.length).endsAt s.now
    if c.isCancelled s.now ∨ ends = some s.now then [s.now]
    else s.now :: ((c.wait s.now ends).bind Wake.time?).toList
  | .pausing resume _ => ((c.wait s.now (some resume)).bind Wake.time?).toList
  | _ => []

namespace Future

/-- The next step of a session, as it is polled. -/
def step (c : Conditions) (f : Future) : Future :=
  f.polled c ((f.session.wakes c).map fun now => (now, c.isCancelled now))

/-- A number of steps. -/
def run (c : Conditions) : Nat → Future → Future
  | 0, f => f
  | n + 1, f => if f.session.isOver then f else run c n (f.step c)

end Future

end Dialer.Retry
