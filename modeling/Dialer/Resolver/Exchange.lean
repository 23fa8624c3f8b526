import Dialer.Resolver.Watch

/-!
# Running resolution

An exchange is what resolution shares together with the tasks that run over it: the watches
of all connections, and the janitors that clear the cache.

Time passes in two ways. `Exchange.passTo` stops at each instant at which something is due
on the way, so each task goes on at its own time; `Exchange.jumpTo` does not, and tasks that
were due in between go on late. At any instant, `Exchange.settle` lets every task that can
go on do so, in the order in which they became due.
-/

namespace Dialer.Resolver

/-- A task that clears the cache in a rhythm until its token is cancelled. -/
structure Janitor where
  number : Nat
  token : Token
  rhythm : Rhythm
  running : Bool

namespace Janitor

/-- Has the rhythm's next clear take place at its time. -/
def schedule (j : Janitor) (s : Shared) : Shared :=
  s.remind j.rhythm.firesAt (.janitor j.number)

/-- Goes on. -/
def run (j : Janitor) (s : Shared) : Janitor × Shared :=
  if s.isCancelled j.token then ({ j with running := false }, s)
  else if j.running && j.rhythm.firesAt ≤ s.now then
    let j := { j with rhythm := j.rhythm.catchUp s.now }
    (j, j.schedule s.clear)
  else (j, s)

end Janitor

/-- Resolution at work. -/
structure Exchange where
  shared : Shared
  /-- The watches, by number. -/
  watches : List Watch
  /-- The janitors, by number. -/
  janitors : List Janitor

namespace Exchange

/-- The beginning, with a directory for the lookups to come. -/
def start (directory : Directory) : Exchange :=
  ⟨.start directory, [], []⟩

/-- The time. -/
def now (x : Exchange) : Nat :=
  x.shared.now

/-- Applies an effect. -/
def apply (x : Exchange) (f : Shared → Shared) : Exchange :=
  { x with shared := f x.shared }

/-- Lets one task go on. -/
def run (x : Exchange) : Task → Exchange
  | .watch n =>
    match x.watches[n]? with
    | some w =>
      let (w, s) := w.run x.shared
      { x with shared := s, watches := x.watches.set n w }
    | none => x
  | .janitor n =>
    match x.janitors[n]? with
    | some j =>
      let (j, s) := j.run x.shared
      { x with shared := s, janitors := x.janitors.set n j }
    | none => x

/-- Lets every task go on that can. -/
def settle (x : Exchange) : Exchange :=
  let due := x.shared.agenda.due x.now
  let x := x.apply fun s => { s with agenda := s.agenda.later s.now }
  due.foldl (fun x entry => x.run entry.2) x

/-- The exchange at a given instant, settled. -/
def jumpTo (x : Exchange) (t : Nat) : Exchange :=
  (x.apply fun s => { s with now := t }).settle

/-- Lets time pass from one instant to another. -/
def passFrom (x : Exchange) (now t : Nat) : Exchange :=
  match x.shared.agenda.next? now t with
  | some ⟨u, _⟩ => passFrom (x.jumpTo u) u t
  | none => x.jumpTo t
termination_by t - now
decreasing_by omega

/-- Lets time pass. -/
def passTo (x : Exchange) (t : Nat) : Exchange :=
  x.passFrom x.now t

/-!
## Watches
-/

/-- Asks a watch to resolve. -/
def request (x : Exchange) (n : Nat) : Exchange :=
  match x.watches[n]? with
  | some w =>
    let (w, woken) := w.request
    let x := { x with watches := x.watches.set n w }
    if woken then x.apply fun s => s.remind s.now (.watch n) else x
  | none => x

/-- A number of requests. -/
def requests (n : Nat) : Nat → Exchange → Exchange
  | 0, x => x
  | times + 1, x => requests n times (x.request n)

/-- Begins to watch, with a first request. -/
def watch (x : Exchange) (a : Assignment) (token : Token) (box : Nat) : Nat × Exchange :=
  let n := x.watches.length
  let w : Watch := ⟨n, a, token, box, .idle, false⟩
  let x := { x with watches := x.watches ++ [w] }
  (n, (x.apply fun s => s.remind s.now (.watch n)).request n)

/-!
## Tokens
-/

/-- Makes a token of its own. -/
def rootToken (x : Exchange) : Token × Exchange :=
  let (t, tokens) := x.shared.tokens.root
  (t, x.apply fun s => { s with tokens })

/-- Makes a token below another. -/
def childToken (x : Exchange) (above : Token) : Token × Exchange :=
  let (t, tokens) := x.shared.tokens.child above
  (t, x.apply fun s => { s with tokens })

/-- Cancels a token. The tasks below it are to go on, which stops them. -/
def cancel (x : Exchange) (t : Token) : Exchange :=
  let x := x.apply fun s => { s with tokens := s.tokens.cancel t }
  let watches := x.watches.filter fun w => x.shared.isCancelled w.token
  let janitors := x.janitors.filter fun j => x.shared.isCancelled j.token
  let tasks := watches.map (fun w => Task.watch w.number)
    ++ janitors.map (fun j => Task.janitor j.number)
  x.apply fun s => tasks.foldl (fun s task => s.remind s.now task) s

/-!
## Janitors
-/

/-- Begins to clear the cache in a rhythm. There is none without an interval. -/
def janitor? (x : Exchange) (every : Duration) (token : Token) : Option Exchange :=
  (Rhythm.start? every x.now).map fun rhythm =>
    let j : Janitor := ⟨x.janitors.length, token, rhythm, true⟩
    { x with shared := j.schedule x.shared, janitors := x.janitors ++ [j] }

end Exchange

end Dialer.Resolver
