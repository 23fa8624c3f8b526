import Dialer.Address
import Dialer.Clock

/-!
# The address cache

A map from a target's endpoint to the addresses it was last resolved to. Entries do not
age: a janitor clears the whole map at a fixed interval.

A janitor that comes late makes the next clear a full interval after the late one. Up to
five milliseconds do not count as late; then the rhythm is kept.
-/

namespace Dialer

/-- The cached addresses of each key. -/
structure AddressCache where
  entries : List (String × List Address)
deriving DecidableEq, Repr

namespace AddressCache

/-- The usual time between two clears. -/
def usualInterval : Duration := .ofSecs 30

/-- The cache without entries. -/
def empty : AddressCache := ⟨[]⟩

/-- The addresses stored under a key. -/
def get? (c : AddressCache) (key : String) : Option (List Address) :=
  c.entries.lookup key

/-- Stores a value in a list of entries, in place of an older one of the same key. -/
def store (key : String) (addresses : List Address) :
    List (String × List Address) → List (String × List Address)
  | [] => [(key, addresses)]
  | (k, old) :: rest =>
    if k = key then (k, addresses) :: rest else (k, old) :: store key addresses rest

/-- Stores addresses under a key. -/
def put (c : AddressCache) (key : String) (addresses : List Address) : AddressCache :=
  ⟨store key addresses c.entries⟩

/-- The number of entries. -/
def size (c : AddressCache) : Nat :=
  c.entries.length

end AddressCache

/-- The rhythm of a janitor. -/
structure Rhythm where
  every : Duration
  /-- The instant of the next clear. -/
  due : Nat
  every_pos : 0 < every.toNanos

namespace Rhythm

/-- The rhythm of a janitor that begins now: the first clear is a full interval away.
There is none without an interval, or if no instant is so far away. -/
def start? (every : Duration) (now : Nat) : Option Rhythm :=
  if h : 0 < every.toNanos then (Clock.instant? now every).map (⟨every, ·, h⟩) else none

/-- The instant at which the timer of the next clear fires. -/
def firesAt (r : Rhythm) : Nat :=
  Clock.tick r.due

/-- How late a clear may be without upsetting the rhythm. -/
def tolerance : Nat := Clock.ofMillis 5

/-- The instant of the clear after one due at `due` that happens now. -/
def following (due now : Nat) (every : Duration) : Nat :=
  Clock.after (if now > due + tolerance then now else due) every

/-- The rhythm after all clears that are due by now. -/
def catchUp (r : Rhythm) (now : Nat) : Rhythm :=
  if _h : Clock.tick r.due ≤ now then
    catchUp { r with due := following r.due now r.every } now
  else
    r
termination_by now + 1 - r.due
decreasing_by
  have hpos := r.every_pos
  have hle := Clock.le_tick r.due
  have hbeyond : r.due < following r.due now r.every := by
    simp only [following, Clock.after]
    split <;> omega
  show now + 1 - following r.due now r.every < now + 1 - r.due
  omega

end Rhythm

end Dialer
