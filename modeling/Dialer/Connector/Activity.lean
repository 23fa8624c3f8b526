import Dialer.Connector

/-!
# Groups of calls

An activity is a group of concurrent calls on one connection, repeated a number of times,
together with what happens to the connection meanwhile. The calls belong to one task: when it
goes on, each call goes as far as it can, in their order, and a group that has ended makes
room for the next at once. Interruptions come behind the calls, each at its instant.

An activity that is not over at its limit is given up, with every attempt that runs.
-/

namespace Dialer.Connector

open Resolver

/-- What happens to a connection during calls. -/
inductive Interruption where
  | close
  | stop
  | refresh
deriving DecidableEq, Repr

/-- A group of calls under way. -/
structure Activity where
  connector : Connector
  /-- The name of the connection. -/
  name : String
  operations : List Operation
  calls : List Call
  /-- Groups still to come. -/
  rounds : Nat
  /-- What is still to happen, and when. -/
  interruptions : List (Nat × Interruption)

namespace Activity

/-- A new group of calls. -/
def group (operations : List Operation) (connection : Connection) : List Call :=
  operations.map fun operation => .start operation connection.policy

/-- Lets the calls go on. -/
def advance (a : Activity) : Activity :=
  match a.connector.connection? a.name with
  | some connection =>
    let (calls, l) := Call.goOnAll a.calls (a.connector.line connection)
    { a with calls, connector := a.connector.withLine a.name l }
  | none => a

/-- Begins the next group. -/
def renew (a : Activity) : Activity :=
  match a.connector.connection? a.name with
  | some connection =>
    { a with calls := group a.operations connection, rounds := a.rounds - 1 }
  | none => { a with rounds := 0 }

/-- Have the calls of the group ended? -/
def callsOver (a : Activity) : Bool :=
  a.calls.all Call.isOver

/-- Lets calls go on, through as many more groups as can be reached. -/
def play : Nat → Activity → Activity
  | 0, a => a.advance
  | n + 1, a =>
    let a := a.advance
    if a.callsOver && a.rounds != 0 then play n a.renew else a

/-- One interruption. -/
def interruptBy (a : Activity) (i : Interruption) : Activity :=
  match a.connector.connection? a.name with
  | some connection =>
    { a with connector := match i with
      | .close => a.connector.close connection
      | .stop => a.connector.stop
      | .refresh => a.connector.refresh connection 1 }
  | none => a

/-- The interruptions that are due. -/
def interrupt (a : Activity) : Activity :=
  let isDue : Nat × Interruption → Bool := fun i => i.1 ≤ a.connector.now
  let due := a.interruptions.takeWhile isDue
  due.foldl (fun a i => a.interruptBy i.2)
    { a with interruptions := a.interruptions.dropWhile isDue }

/-- An activity in the foreground. -/
def foreground : Foreground Activity where
  exchange a := a.connector.exchange
  withExchange a x := { a with connector := { a.connector with exchange := x } }
  goOn a := (play a.rounds a).interrupt
  isOver a := a.callsOver && a.rounds == 0 && a.interruptions.isEmpty
  wakes a := a.calls.flatMap Call.wakes ++ (a.interruptions.take 1).map (·.1)

/-- Gives up the calls that have not ended. -/
def abandon (a : Activity) : Connector :=
  match a.connector.connection? a.name with
  | some connection =>
    a.connector.withLine a.name
      (a.calls.foldl (fun l c => c.abandon l) (a.connector.line connection))
  | none => a.connector

end Activity

/-- Makes groups of concurrent calls on a connection, one group after the other, with what
happens meanwhile. The calls of the last group, unless they had to be given up. -/
def callAll (c : Connector) (name : String) (operations : List Operation) (times : Nat)
    (interruptions : List (Nat × Interruption)) (limit : Duration) :
    Connector × Option (List Call) :=
  let a : Activity := Activity.renew ⟨c, name, operations, [], times, interruptions⟩
  match Activity.foreground.attend a (Clock.timer c.now limit) with
  | (a, true) => (a.connector, some a.calls)
  | (a, false) => (a.abandon, none)

end Dialer.Connector
