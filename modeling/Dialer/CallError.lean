import Dialer.Duration.Text

/-!
# Call errors

What a call can fail with, the coarse kind of each failure that the circuit breaker
and the retry policy look at (`CallError.kind`), and the reading of a textual
transport status (`CallError.ofStatus`).
-/

namespace Dialer

/-- The coarse classification of a failed call. -/
inductive OutcomeKind where
  /-- An ordinary failure: it counts against the breaker and may be retried. -/
  | failure
  /-- The transport shuts down; retrying is pointless. -/
  | transportClosing
  /-- The transport reported as an error what is really a success. -/
  | successShaped
  /-- The circuit breaker rejected the call. -/
  | circuitOpen
deriving DecidableEq, Repr

namespace OutcomeKind

/-- Does this outcome end a retry session? -/
def isTerminal (kind : OutcomeKind) : Bool :=
  kind != .failure

/-- The name of a kind. -/
def name : OutcomeKind → String
  | .failure => "Failure"
  | .transportClosing => "TransportClosing"
  | .successShaped => "SuccessShaped"
  | .circuitOpen => "CircuitOpen"

end OutcomeKind

/-- Errors on the path of a call. -/
inductive CallError where
  /-- The breaker of this name is open. -/
  | circuitOpen (breaker : String)
  /-- The breaker of this name is half-open and has no trial left. -/
  | tooManyRequests (breaker : String)
  | transportClosing (reason : String)
  | successShaped (reason : String)
  | timeout (limit : Duration)
  | failed (reason : String)
  /-- The last error after all attempts of a session. -/
  | retriesExhausted (attempts : UInt32) (last : CallError)
  | cancelled
deriving DecidableEq

namespace CallError

/-- The kind of an error; that of the last attempt if retries were exhausted. -/
def kind : CallError → OutcomeKind
  | .circuitOpen _ | .tooManyRequests _ => .circuitOpen
  | .transportClosing _ => .transportClosing
  | .successShaped _ => .successShaped
  | .retriesExhausted _ last => last.kind
  | .timeout _ | .failed _ | .cancelled => .failure

/-- The name of an error's variant. -/
def variant : CallError → String
  | .circuitOpen _ => "CircuitOpen"
  | .tooManyRequests _ => "TooManyRequests"
  | .transportClosing _ => "TransportClosing"
  | .successShaped _ => "SuccessShaped"
  | .timeout _ => "Timeout"
  | .failed _ => "Failed"
  | .retriesExhausted _ _ => "RetriesExhausted"
  | .cancelled => "Cancelled"

/-- The message of an error. -/
def message : CallError → String
  | .circuitOpen breaker => "circuit breaker '" ++ breaker ++ "' is open"
  | .tooManyRequests breaker =>
    "circuit breaker '" ++ breaker ++ "' rejected call: too many half-open requests"
  | .transportClosing reason => "transport is closing: " ++ reason
  | .successShaped reason => "call returned a success status as error: " ++ reason
  | .timeout limit => "call timed out after " ++ limit.render
  | .failed reason => "call failed: " ++ reason
  | .retriesExhausted attempts last =>
    "retries exhausted after " ++ Nat.repr attempts.toNat ++ " attempts: " ++ last.message
  | .cancelled => "call cancelled"

/-- The errors that an error was made from, the nearest first. -/
def sources : CallError → List CallError
  | .retriesExhausted _ last => last :: last.sources
  | _ => []

/-- Does the second text occur in the first? -/
def mentions (text part : List Char) : Bool :=
  match text with
  | [] => part.isEmpty
  | c :: rest => part.isPrefixOf (c :: rest) || mentions rest part

/-- The status text of a transport that is torn down. -/
def closingStatus : String := "transport is closing"

/-- The status text of an error that is really a success. -/
def successStatus : String := "OK: HTTP status code 200"

/-- The error that a textual transport status stands for. -/
def ofStatus (status : String) : CallError :=
  if mentions status.toList closingStatus.toList then .transportClosing status
  else if mentions status.toList successStatus.toList then .successShaped status
  else .failed status

end CallError

end Dialer
