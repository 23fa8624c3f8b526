import Dialer.Backoff
import Dialer.Config.Validation

/-!
# Connect errors

Why a target cannot be connected to. All of these come before any work in the background
is begun.
-/

namespace Dialer

/-- Why a connection cannot be made. -/
inductive ConnectError where
  | parse (error : ParseError)
  /-- Nothing resolves targets of this scheme. -/
  | unknownScheme (scheme : String)
  /-- The delays of retries make no backoff. -/
  | backoff (error : BackoffError)
  /-- The configuration has problems. -/
  | invalid (errors : List ValidationError)
deriving DecidableEq

/-- The name of a connect error's variant. -/
def ConnectError.variant : ConnectError → String
  | .parse _ => "Parse"
  | .unknownScheme _ => "UnknownScheme"
  | .backoff _ => "Config"
  | .invalid _ => "Invalid"

/-- The message of a connect error. -/
def ConnectError.message : ConnectError → String
  | .parse error => error.message
  | .unknownScheme scheme => "no resolver registered for scheme '" ++ scheme ++ "'"
  | .backoff error => "invalid connection settings: " ++ error.message
  | .invalid errors => "invalid configuration: " ++ ValidationError.messages errors

end Dialer
