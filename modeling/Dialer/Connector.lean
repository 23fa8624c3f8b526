import Dialer.Call
import Dialer.Resolver.Foreground

/-!
# The connector

A connector makes connections from targets and keeps them under names. They share a cache,
which a janitor clears, and a registry that knows two schemes from the start. A shutdown
stops the janitor, all resolution and all calls. Whoever stops the connector first takes the
janitor along and waits for its end; later ones find none to wait for.

An invalid configuration makes no connector (`Connector.make`), and a target that does not
parse or has an unknown scheme makes no connection (`Connector.connect`): in both cases
nothing has happened.
-/

namespace Dialer

open Resolver

/-- What makes connections, and the connections made. -/
structure Connector where
  config : Config
  registry : Registry
  exchange : Exchange
  shutdown : Shutdown
  /-- The connections, by name. -/
  connections : List (String × Connection)
  /-- The draw made for each retry, by the number of retries before it. -/
  draw : Nat → Float
  /-- The number of the janitor, until someone who stops the connector takes it. -/
  janitor : Option Nat

/-- A shutdown under way. -/
structure Stopping where
  /-- The janitor whose end is waited for, if it was there to be taken. -/
  awaits : Option Nat
  returned : Bool
deriving DecidableEq

namespace Connector

/-- The janitor and the registry of a new connector. -/
def equip (config : Config) (byAuthority : Bool) (draw : Nat → Float) (x : Exchange) : Connector :=
  let (shutdown, tokens) := Shutdown.make x.shared.tokens
  let x := x.apply fun s => { s with tokens }
  let (sweeping, x) := x.childToken shutdown.origin
  let (watching, x) := x.childToken shutdown.origin
  let cleaned := x.janitor? config.resolver.cacheClearInterval sweeping
  let janitor := cleaned.map fun _ => x.janitors.length
  let x := cleaned.getD x
  let options : LookupOptions := ⟨config.resolver.lookupTimeout, byAuthority, some watching⟩
  ⟨config, (Registry.empty.register .passthrough).register (.dns options), x, shutdown, [], draw,
    janitor⟩

/-- Makes a connector. Hosts are looked up in a directory; `byAuthority` says whether targets
that name a nameserver have a backend of their own. -/
def make (config : Config) (directory : Directory) (byAuthority : Bool) (draw : Nat → Float) :
    Except ConnectError Connector :=
  match config.validate with
  | .ok config => .ok (equip config byAuthority draw (.start directory))
  | .error errors => .error (.invalid errors)

/-- The time. -/
def now (c : Connector) : Nat :=
  c.exchange.now

/-- Has the exchange do something. -/
def via (c : Connector) (f : Exchange → Exchange) : Connector :=
  { c with exchange := f c.exchange }

/-- Applies an effect. -/
def apply (c : Connector) (f : Shared → Shared) : Connector :=
  c.via (·.apply f)

/-- Registers a builder. -/
def register (c : Connector) (b : Builder) : Connector :=
  { c with registry := c.registry.register b }

/-- The connection of a name. -/
def connection? (c : Connector) (name : String) : Option Connection :=
  c.connections.lookup name

/-- Puts a changed connection in its place. -/
def update (c : Connector) (name : String) (connection : Connection) : Connector :=
  { c with connections :=
    c.connections.map fun entry => if entry.1 = name then (name, connection) else entry }

/-- Drops a connection: its resolver stops. -/
def drop (c : Connector) (name : String) : Connector :=
  match c.connection? name with
  | some connection =>
    { c with connections := c.connections.filter (·.1 != name) }.via (·.close connection.resolver)
  | none => c

/-- Makes the connection for a parsed target. A window in milliseconds ends at an instant, so its
breaker can be made. -/
def establish (c : Connector) (raw : String) (t : Target) (b : Builder) (policy : RetryPolicy) :
    Except ConnectError (Connection × Connector) := do
  let (box, shared) := c.exchange.shared.openBox
  let updates := (shared.box box).subscribe
  let (resolver, x) ← { c.exchange with shared }.build b t box
  let (token, x) := x.childToken c.shutdown.origin
  let breaker := Breaker.make (.ofConfig raw c.config.breaker) c.now
  return (⟨t, resolver, box, updates, breaker, policy, token⟩, { c with exchange := x })

/-- Connects to a target under a name. A connection that had the name is dropped. -/
def connect (c : Connector) (name raw : String) : Except ConnectError Connector := do
  let target ← (Target.parse raw c.config.resolver.ports).mapError ConnectError.parse
  match c.registry.get? target.scheme with
  | none => throw (.unknownScheme target.scheme)
  | some builder =>
    let policy ← (RetryPolicy.ofConfig c.config.retries).mapError ConnectError.backoff
    let (connection, c) ← c.establish raw target builder policy
    let c := c.drop name
    return { c with connections := c.connections ++ [(name, connection)] }

/-- The addresses published last for a connection. -/
def addresses (c : Connector) (connection : Connection) : List Address :=
  (c.exchange.shared.box connection.box).current

/-- A receiver of a connection's later sets. -/
def subscribe (c : Connector) (connection : Connection) : Receiver :=
  (c.exchange.shared.box connection.box).subscribe

/-- Asks for fresh addresses of a connection. -/
def refresh (c : Connector) (connection : Connection) (times : Nat) : Connector :=
  c.via (·.refresh connection.resolver times)

/-- Closes a connection: its calls are cancelled and its resolver stops. -/
def close (c : Connector) (connection : Connection) : Connector :=
  c.via fun x => (x.cancel connection.token).close connection.resolver

/-- Stops everything: what goes on is cancelled, the janitor with it, and the janitor is taken. -/
def stop (c : Connector) : Connector :=
  { c with janitor := none }.via (·.cancel c.shutdown.origin)

/-- Begins a shutdown: everything is stopped, and the janitor that was taken is to be waited for. -/
def shutDown (c : Connector) : Stopping × Connector :=
  (⟨c.janitor, false⟩, c.stop)

/-- Has a janitor that was taken come to its end? If none was there to be taken, nothing is waited
for. -/
def hasEnded (c : Connector) (taken : Option Nat) : Bool :=
  taken.all fun n => c.exchange.janitors[n]?.all (!·.running)

theorem hasEnded_iff {c : Connector} {taken : Option Nat} : c.hasEnded taken = true ↔
    ∀ n ∈ taken, ∀ j ∈ c.exchange.janitors[n]?, j.running = false := by
  simp [hasEnded, Option.all_eq_true]

/-- A shutdown goes on: it returns if what it waits for has come to its end. -/
def join (c : Connector) (s : Stopping) : Stopping :=
  { s with returned := s.returned || c.hasEnded s.awaits }

/-- A connection in use. -/
def line (c : Connector) (connection : Connection) : Line where
  exchange := c.exchange
  connection
  callbacks := .ofConfig c.config.breaker
  callTimeout := c.config.timeouts.callTimeout
  jitterRatio := c.config.retries.jitterRatio
  draw := c.draw

/-- Puts a connection back after use. -/
def withLine (c : Connector) (name : String) (l : Line) : Connector :=
  { c with exchange := l.exchange }.update name l.connection

/-- The state of a connection's circuit. -/
def observe (c : Connector) (name : String) (connection : Connection) :
    Connector × Reply CircuitState :=
  let (l, state) := (c.line connection).observe
  (c.withLine name l, state)

/-- How a connector appears in diagnostics. -/
def diagnostic (c : Connector) : String :=
  Text.openRecord "ConnectionFactory" [
    ("schemes", Text.bracketed (c.registry.schemes.map Text.quoted)),
    ("cached_entries", Nat.repr c.exchange.shared.cache.size)]

/-!
## Waiting for addresses
-/

/-- Has a connection a set that it has not seen? -/
def hasNews (c : Connector) (connection : Connection) : Bool :=
  (c.exchange.shared.box connection.box).hasNews connection.updates

/-- Someone who waits for a set that a connection has not seen. -/
def waiter (connection : Connection) : Foreground Connector where
  exchange := Connector.exchange
  withExchange c x := { c with exchange := x }
  goOn c := c
  isOver c := c.hasNews connection
  wakes _ := []

/-- Waits for a set that a connection has not seen, and gives it; nothing if there is none by
the limit. -/
def awaitUpdate (c : Connector) (name : String) (connection : Connection) (limit : Duration) :
    Connector × Option (List Address) :=
  match (waiter connection).attend c (Clock.timer c.now limit) with
  | (c, true) =>
    let (addresses, updates) := (c.exchange.shared.box connection.box).read connection.updates
    (c.update name { connection with updates }, some addresses)
  | (c, false) => (c, none)

end Connector

end Dialer
