import Dialer.CallError
import Dialer.Clock

/-!
# Operations

The thing a call runs. Each invocation of an operation makes one attempt, whose
behaviour is fixed beforehand: how long it takes and how it ends. An operation is thus a
function from the number of earlier invocations to a `Behaviour`; a script is a finite
one, which answers `end` once it has been played.
-/

namespace Dialer

/-- The result of a call. -/
abbrev CallResult := Except CallError String

/-- How an attempt ends. -/
inductive Outcome where
  | returns (result : CallResult)
  /-- Never. -/
  | hangs
  /-- By an exception of the operation's own. -/
  | raises

/-- How long an attempt takes, and how it ends. -/
structure Behaviour where
  duration : Duration
  outcome : Outcome

namespace Behaviour

/-- An attempt that returns at once. -/
def immediate (result : CallResult) : Behaviour :=
  ⟨.zero, .returns result⟩

/-- The instant at which an attempt begun now ends, if ever. -/
def endsAt (b : Behaviour) (now : Nat) : Option Nat :=
  match b.outcome with
  | .hangs => none
  | _ => some (if b.duration.isZero then now else Clock.wake now b.duration)

/-- No attempt ends before it begins. -/
theorem le_endsAt {b : Behaviour} {now due : Nat} (h : b.endsAt now = some due) :
    now ≤ due := by
  have hwake : now ≤ Clock.wake now b.duration :=
    Nat.le_trans (Nat.le_add_right _ _) (Clock.le_tick _)
  unfold endsAt at h
  split at h
  · cases h
  · cases h
    split
    · exact Nat.le_refl _
    · exact hwake

end Behaviour

/-- The behaviour of each invocation, counted from zero. -/
abbrev Operation := Nat → Behaviour

namespace Operation

/-- What a script answers past its end. -/
def pastEnd : Behaviour :=
  .immediate (.ok "end")

/-- The operation that plays a script. -/
def ofScript (script : List Behaviour) : Operation :=
  fun n => script.getD n pastEnd

end Operation

end Dialer
