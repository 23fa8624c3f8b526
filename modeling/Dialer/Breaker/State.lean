/-!
# States of a circuit

A circuit is closed (calls pass and are counted), open (calls fail at once) or
half-open (a bounded number of trial calls decides). A `Transition` is a change of
state as it is reported.
-/

namespace Dialer

/-- The state of a circuit. -/
inductive CircuitState where
  | closed
  | halfOpen
  | opened
deriving DecidableEq, Repr

/-- The name of a state. -/
def CircuitState.name : CircuitState → String
  | .closed => "closed"
  | .halfOpen => "half-open"
  | .opened => "open"

/-- A change of state. -/
structure Transition where
  source : CircuitState
  target : CircuitState
deriving DecidableEq, Repr

end Dialer
