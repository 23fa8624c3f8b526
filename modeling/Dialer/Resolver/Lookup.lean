import Dialer.Duration.Text
import Dialer.Ip.Canonical
import Dialer.Ip.Reader

/-!
# Looking up hosts

A backend takes a host to the texts of its addresses, or fails. The backend of the
system is asked by default; a target with an authority may have one of its own.

A `Directory` says how lookups go, so that a run can be replayed: for each host a list of
answers, each used once, the last one for ever.
-/

namespace Dialer

/-- Why a lookup failed. -/
inductive LookupError where
  | backend (reason : String)
  | timeout (limit : Duration)
deriving DecidableEq

/-- The message of a lookup error. -/
def LookupError.message : LookupError → String
  | .backend reason => "lookup failed: " ++ reason
  | .timeout limit => "lookup timed out after " ++ limit.render

/-- Whom a lookup asks. -/
inductive Backend where
  | standard
  | nameserver (authority : String)
deriving DecidableEq, Repr

/-- The name of a backend. -/
def Backend.name : Backend → String
  | .standard => "default"
  | .nameserver authority => authority

/-- What a lookup ends with. -/
inductive Finding where
  | ips (texts : List String)
  | fails (error : LookupError)
  /-- Nothing: it does not end. -/
  | hangs
deriving DecidableEq

/-- How one lookup goes. -/
structure LookupAnswer where
  duration : Duration
  finding : Finding
deriving DecidableEq

/-- The answers still to be given for each host. -/
structure Directory where
  hosts : List (String × List LookupAnswer)
deriving DecidableEq

namespace Directory

/-- The answer for a host that is not listed. -/
def unknown (host : String) : LookupAnswer :=
  ⟨.zero, .fails (.backend ("no such host: " ++ host))⟩

/-- Replaces the answers of a host. -/
def assign (d : Directory) (host : String) (answers : List LookupAnswer) : Directory :=
  ⟨(host, answers) :: d.hosts.filter (·.1 != host)⟩

/-- The answer for a host, and the directory after giving it. -/
def ask (d : Directory) (host : String) : LookupAnswer × Directory :=
  match d.hosts.lookup host with
  | some (answer :: next :: rest) => (answer, d.assign host (next :: rest))
  | some [answer] => (answer, d)
  | _ => (unknown host, d)

end Directory

/-- A lookup that was begun. -/
structure LookupRecord where
  backend : Backend
  host : String
  time : Nat
deriving DecidableEq, Repr

/-- What the system finds for a host that is an IP literal: its canonical text. -/
def systemLookup (host : String) : Finding :=
  match Ip.read? host.toList with
  | some ip => .ips [ip.canonical]
  | none => .fails (.backend ("no such host: " ++ host))

end Dialer
