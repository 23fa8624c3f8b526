import Dialer.Resolver.Shared

/-!
# Watching one host

A watch resolves one endpoint whenever it is asked to:

    idle → parked → called → … → idle      a request ends the wait
    idle → looking → idle                  a lookup takes time
    any  → stopped                         its token is cancelled

A cycle serves the endpoint's cached addresses if there are any, and looks the host up
otherwise (`Watch.cycle`). A lookup ends with its answer, or with nothing at its deadline;
an answer that is there at the deadline still counts. Every cycle publishes one set: a
failed one the empty set, which is not put into the cache.

A parked watch is called by a request; at any other time a request is kept, and only one
is. Whenever a watch goes on, it looks at its token first, and then goes as far as it can
(`Watch.run`).
-/

namespace Dialer.Resolver

/-- What a watch is to resolve. -/
structure Assignment where
  /-- The endpoint, under which the cache knows the addresses. -/
  key : String
  host : String
  port : String
  backend : Backend
  /-- How long a lookup may take. -/
  limit : Duration
deriving DecidableEq

/-- A lookup under way. -/
structure Pending where
  finding : Finding
  /-- When the answer is there, if ever. -/
  answersAt : Option Nat
  /-- When the lookup is given up, if ever. -/
  deadline : Option Nat
deriving DecidableEq

/-- Where a watch stands. -/
inductive Phase where
  /-- About to see whether a request was kept. -/
  | idle
  /-- Waiting for a request. -/
  | parked
  /-- Called while it was waiting. -/
  | called
  /-- Waiting for a lookup. -/
  | looking (lookup : Pending)
  | stopped
deriving DecidableEq

/-- A watch. -/
structure Watch where
  number : Nat
  assignment : Assignment
  token : Token
  /-- The outbox it publishes into. -/
  box : Nat
  phase : Phase
  /-- Has a request been kept? -/
  wanted : Bool
deriving DecidableEq

namespace Watch

/-- A request, and whether it wakes the watch. -/
def request (w : Watch) : Watch × Bool :=
  match w.phase with
  | .parked => ({ w with phase := .called }, true)
  | _ => ({ w with wanted := true }, false)

/-- The addresses among the entries of an answer. -/
def addressesOf (port : String) (entries : List String) : List Address :=
  entries.filterMap fun ip => Address.ofIp? ip port

/-- Ends a cycle without addresses. -/
def fail (w : Watch) (s : Shared) : Watch × Shared :=
  ({ w with phase := .idle },
    { s with metrics := s.metrics.tally .lookupFailures }.publish w.box [])

/-- Ends a cycle with what a lookup found. -/
def conclude (w : Watch) (s : Shared) (finding : Finding) : Watch × Shared :=
  match finding with
  | .ips entries =>
    let addresses := addressesOf w.assignment.port entries
    let s := s.count .droppedAddresses (entries.length - addresses.length)
    let s := s.store w.assignment.key addresses
    ({ w with phase := .idle }, s.produce .lookup w.box addresses)
  | .fails _ => w.fail s
  | .hangs => (w, s)

/-- When an answer that begins now is there, if ever. -/
def answerTime (s : Shared) (a : LookupAnswer) : Option Nat :=
  match a.finding with
  | .hangs => none
  | _ => some (if a.duration.isZero then s.now else Clock.wake s.now a.duration)

/-- Is the instant there? -/
def isPast (now : Nat) : Option Nat → Bool
  | some t => t ≤ now
  | none => false

theorem isPast_iff {now : Nat} {due : Option Nat} :
    isPast now due = true ↔ ∃ t, due = some t ∧ t ≤ now := by
  cases due <;> simp [isPast]

/-- Has the watch go on at an instant, if there is one. -/
def alarm (w : Watch) (s : Shared) : Option Nat → Shared
  | some t => s.remind t (.watch w.number)
  | none => s

/-- Waits for a lookup; one that is over already is not waited for. -/
def await (w : Watch) (s : Shared) (lookup : Pending) : Watch × Shared :=
  if lookup.answersAt = some s.now then w.conclude s lookup.finding
  else if isPast s.now lookup.deadline then w.fail s
  else
    ({ w with phase := .looking lookup },
      w.alarm (w.alarm s lookup.answersAt) lookup.deadline)

/-- Begins a lookup. -/
def look (w : Watch) (s : Shared) : Watch × Shared :=
  let (answer, s) := s.ask w.assignment.backend w.assignment.host
  w.await s ⟨answer.finding, answerTime s answer, Clock.deadline? s.now w.assignment.limit⟩

/-- Begins a cycle: the cache is served if it has addresses for the endpoint. -/
def cycle (w : Watch) (s : Shared) : Watch × Shared :=
  match s.cache.get? w.assignment.key with
  | some (a :: rest) => ({ w with phase := .idle }, s.produce .cache w.box (a :: rest))
  | _ => w.look s

/-- One turn of a watch whose token is not cancelled. -/
def proceed (w : Watch) (s : Shared) : Watch × Shared :=
  match w.phase with
  | .idle =>
    if w.wanted then { w with wanted := false }.cycle s
    else ({ w with phase := .parked }, s)
  | .called => w.cycle s
  | .looking lookup =>
    if isPast s.now lookup.answersAt then w.conclude s lookup.finding
    else if isPast s.now lookup.deadline then w.fail s
    else (w, s)
  | .parked | .stopped => (w, s)

/-- One turn: a cancelled watch stops and does nothing more. -/
def turn (w : Watch) (s : Shared) : Watch × Shared :=
  if s.isCancelled w.token then ({ w with phase := .stopped }, s)
  else w.proceed s

/-- Goes as far as it can. Three turns do: to the end of a lookup, through the one request
that may have been kept, and back to waiting. -/
def run (w : Watch) (s : Shared) : Watch × Shared :=
  let (w, s) := w.turn s
  let (w, s) := w.turn s
  w.turn s

end Watch

end Dialer.Resolver
