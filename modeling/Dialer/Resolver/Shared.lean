import Dialer.AddressCache
import Dialer.Agenda
import Dialer.Cancellation
import Dialer.Metrics
import Dialer.Outbox
import Dialer.Resolver.Lookup

/-!
# What resolution shares

All resolution of one connector goes on over the same clock, cache, metrics and tokens, asks
the same backends, and publishes into numbered outboxes. `Shared` holds these things, and
the agenda of the tasks that wait for an instant. Each operation here is one effect:

* `Shared.publish` — a set is published into an outbox;
* `Shared.store`, `Shared.clear` — the cache is written or cleared, and its metrics with it;
* `Shared.ask` — a lookup begins, and is recorded;
* `Shared.remind` — a task is to go on at an instant.
-/

namespace Dialer.Resolver

/-- A task in the background, by its number among its kind. -/
inductive Task where
  | watch (number : Nat)
  | janitor (number : Nat)
deriving DecidableEq, Repr

/-- What all resolution shares. -/
structure Shared where
  now : Nat
  metrics : Metrics
  cache : AddressCache
  tokens : Cancellations
  directory : Directory
  /-- The lookups begun so far, the latest first. -/
  lookups : List LookupRecord
  /-- The outboxes, by number. -/
  outboxes : List Outbox
  agenda : Agenda Task

namespace Shared

/-- The beginning, with a directory for the lookups to come. -/
def start (directory : Directory) : Shared :=
  ⟨0, .empty, .empty, .empty, directory, [], [], .empty⟩

/-- Is the token cancelled? -/
def isCancelled (s : Shared) (t : Token) : Bool :=
  s.tokens.isCancelled t

/-- Adds to a counter; adding nothing does not touch it. -/
def count (s : Shared) (m : Metric) (n : Nat) : Shared :=
  { s with metrics := if n = 0 then s.metrics else s.metrics.add m n }

/-- Makes a new outbox. -/
def openBox (s : Shared) : Nat × Shared :=
  (s.outboxes.length, { s with outboxes := s.outboxes ++ [.empty] })

/-- The outbox of a number. -/
def box (s : Shared) (n : Nat) : Outbox :=
  s.outboxes.getD n .empty

/-- Publishes a set. -/
def publish (s : Shared) (n : Nat) (addresses : List Address) : Shared :=
  { s with outboxes := s.outboxes.modify n (·.publish s.now addresses) }

/-- Publishes a set that was produced by one of the sources. -/
def produce (s : Shared) (source : Source) (n : Nat) (addresses : List Address) : Shared :=
  { s with metrics := s.metrics.tally (.resolutions source) }.publish n addresses

/-- Stores addresses in the cache, and shows its new size. -/
def store (s : Shared) (key : String) (addresses : List Address) : Shared :=
  let cache := s.cache.put key addresses
  { s with cache, metrics := s.metrics.set .cacheEntries cache.size }

/-- Clears the cache. The number of entries removed is counted, also if it is zero. -/
def clear (s : Shared) : Shared :=
  { s with
    cache := .empty
    metrics := (s.metrics.add .cacheClears s.cache.size).set .cacheEntries 0 }

/-- Begins a lookup. -/
def ask (s : Shared) (backend : Backend) (host : String) : LookupAnswer × Shared :=
  let (answer, directory) := s.directory.ask host
  (answer, { s with directory, lookups := ⟨backend, host, s.now⟩ :: s.lookups })

/-- Has a task go on at an instant. -/
def remind (s : Shared) (due : Nat) (task : Task) : Shared :=
  { s with agenda := s.agenda.add due task }

end Shared

end Dialer.Resolver
