import Dialer.Resolver.Exchange

/-!
# The foreground of an exchange

While an exchange goes on in the background, something else waits for it in the foreground:
a caller who wants the next address set, or a group of calls. At each instant the foreground
goes on first, then the background does, and then the foreground once more, since it may
have been waiting for just that. Then the time is that of whatever comes next.

A foreground is attended until it is over, or until a limit. At the limit it still goes on;
the background does not.
-/

namespace Dialer.Resolver

/-- Something in the foreground of an exchange. -/
structure Foreground (σ : Type) where
  exchange : σ → Exchange
  withExchange : σ → Exchange → σ
  /-- Goes on as far as it can at this instant. -/
  goOn : σ → σ
  isOver : σ → Bool
  /-- The instants at which it can go on by itself. -/
  wakes : σ → List Nat

namespace Foreground

variable {σ : Type}

/-- The first of some instants that lies between two others; the last of these if there is
none. -/
def earliest (now limit : Nat) (h : now < limit) : List Nat → { t : Nat // now < t ∧ t ≤ limit }
  | [] => ⟨limit, h, Nat.le_refl limit⟩
  | t :: rest =>
    let u := earliest now limit h rest
    if ht : now < t ∧ t < u.val then ⟨t, ht.1, by have := u.property; omega⟩ else u

/-- Lets the background go on. -/
def settle (f : Foreground σ) (s : σ) : σ :=
  f.withExchange s (f.exchange s).settle

/-- The same at another instant. -/
def moveTo (f : Foreground σ) (s : σ) (t : Nat) : σ :=
  f.withExchange s ((f.exchange s).apply fun shared => { shared with now := t })

/-- The instants at which something goes on. -/
def instants (f : Foreground σ) (s : σ) (now limit : Nat) : List Nat :=
  match (f.exchange s).shared.agenda.next? now limit with
  | some t => t.val :: f.wakes s
  | none => f.wakes s

/-- Attends a foreground from an instant on; also whether it came to its end. -/
def attendFrom (f : Foreground σ) (s : σ) (now limit : Nat) : σ × Bool :=
  let s := f.goOn s
  if f.isOver s then (s, true)
  else if h : now < limit then
    let s := f.goOn (f.settle s)
    if f.isOver s then (s, true)
    else
      let s := f.settle s
      match earliest now limit h (f.instants s now limit) with
      | ⟨t, _⟩ => attendFrom f (f.moveTo s t) t limit
  else (s, false)
termination_by limit - now
decreasing_by omega

/-- Attends a foreground. -/
def attend (f : Foreground σ) (s : σ) (limit : Nat) : σ × Bool :=
  f.attendFrom s (f.exchange s).now limit

end Foreground

end Dialer.Resolver
