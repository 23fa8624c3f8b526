/-!
# Cancellation

Tokens form a tree: a token is made on its own or as the child of another, and cancelling
a token cancels everything below it, also what is made later. A token carries the marks
of its whole line of descent; it is cancelled as soon as one of them is.
-/

namespace Dialer

/-- A token: its own mark, followed by those of the tokens above it. -/
structure Token where
  lineage : List Nat
deriving DecidableEq, Repr

/-- The marks given out so far, and the cancelled ones. -/
structure Cancellations where
  next : Nat
  cancelled : List Nat
deriving DecidableEq, Repr

namespace Cancellations

/-- No token made yet. -/
def empty : Cancellations := ⟨0, []⟩

/-- Makes a token of its own. -/
def root (c : Cancellations) : Token × Cancellations :=
  (⟨[c.next]⟩, { c with next := c.next + 1 })

/-- Makes a token below another. -/
def child (c : Cancellations) (above : Token) : Token × Cancellations :=
  (⟨c.next :: above.lineage⟩, { c with next := c.next + 1 })

/-- Cancels a token. -/
def cancel (c : Cancellations) (t : Token) : Cancellations :=
  { c with cancelled := t.lineage.take 1 ++ c.cancelled }

/-- Is the token, or one above it, cancelled? -/
def isCancelled (c : Cancellations) (t : Token) : Bool :=
  t.lineage.any fun mark => c.cancelled.contains mark

end Cancellations

/-!
## Shutdown

A shutdown is a token at the root of everything that is to stop with it. All of its
handles share the token; triggering any of them triggers all.
-/

/-- The root of all that stops together. -/
structure Shutdown where
  origin : Token
deriving DecidableEq, Repr

namespace Shutdown

/-- A shutdown that nothing depends on yet. -/
def make (c : Cancellations) : Shutdown × Cancellations :=
  let (origin, c) := c.root
  (⟨origin⟩, c)

/-- A token that is cancelled with the shutdown. -/
def token (s : Shutdown) (c : Cancellations) : Token × Cancellations :=
  c.child s.origin

/-- Stops everything. -/
def trigger (s : Shutdown) (c : Cancellations) : Cancellations :=
  c.cancel s.origin

/-- Has it been triggered? -/
def isTriggered (s : Shutdown) (c : Cancellations) : Bool :=
  c.isCancelled s.origin

end Shutdown

end Dialer
