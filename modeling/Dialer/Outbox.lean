import Dialer.Address

/-!
# Published address sets

An outbox holds the address sets published for one connection. Its current set is the
one published last, empty before the first. Receivers count publications, not values: a
receiver that has seen a number of them has news as soon as there are more, also if the
set is the same again.
-/

namespace Dialer

/-- An address set and the instant it was published. -/
structure Publication where
  time : Nat
  addresses : List Address
deriving DecidableEq, Repr

/-- The sets published so far, the latest first. -/
structure Outbox where
  published : List Publication
deriving DecidableEq, Repr

/-- Someone who watches an outbox, and how many publications they have seen. -/
structure Receiver where
  seen : Nat
deriving DecidableEq, Repr

namespace Outbox

/-- Nothing published yet. -/
def empty : Outbox := ⟨[]⟩

/-- Publishes a set. -/
def publish (o : Outbox) (now : Nat) (addresses : List Address) : Outbox :=
  ⟨⟨now, addresses⟩ :: o.published⟩

/-- How many sets were published. -/
def size (o : Outbox) : Nat :=
  o.published.length

/-- The set published last. -/
def current (o : Outbox) : List Address :=
  match o.published with
  | [] => []
  | p :: _ => p.addresses

/-- A receiver that is told of later publications only. -/
def subscribe (o : Outbox) : Receiver :=
  ⟨o.size⟩

/-- Has there been a publication that the receiver has not seen? -/
def hasNews (o : Outbox) (r : Receiver) : Bool :=
  r.seen < o.size

/-- The current set, which the receiver has seen then. -/
def read (o : Outbox) (_ : Receiver) : List Address × Receiver :=
  (o.current, ⟨o.size⟩)

/-- What was published after the first `n` sets, the oldest first. -/
def since (o : Outbox) (n : Nat) : List Publication :=
  (o.published.take (o.size - n)).reverse

end Outbox

end Dialer
