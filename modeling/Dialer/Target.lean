import Dialer.Address
import Dialer.Text.Quoted

/-!
# Targets

A target names what to connect to:

    [scheme://][authority/]host[:port]

Without a scheme the whole text is the endpoint and the scheme is `dns`. The
authority, a nameserver, is only read behind a scheme; it ends at the first slash.
The endpoint is kept as it stands, beside the host and port read from it.
-/

namespace Dialer

/-- A parsed target. -/
structure Target where
  /-- The scheme in lower case. -/
  scheme : String
  /-- The nameserver to ask, as host and port, if the target names one. -/
  authority : Option String
  /-- What follows the authority, as it stands. -/
  endpoint : String
  host : String
  port : String
deriving DecidableEq, Repr

/-- The ports that apply where a target names none. -/
structure DefaultPorts where
  endpoint : String
  nameserver : String
deriving DecidableEq, Repr

namespace Target

/-- The scheme of a target that names none. -/
def defaultScheme : List Char :=
  "dns".toList

/-- Does the text have the form of a scheme? -/
def isScheme : List Char → Bool
  | [] => false
  | c :: rest =>
    c.isAlpha && rest.all fun c => c.isAlphanum || c == '+' || c == '-' || c == '.'

/-- The parts before and after the first `://`. -/
def splitSchemeMark : List Char → Option (List Char × List Char)
  | [] => none
  | ':' :: '/' :: '/' :: rest => some ([], rest)
  | c :: rest => (splitSchemeMark rest).map fun p => (c :: p.1, p.2)

/-- The three parts of a raw target: scheme, authority and endpoint. -/
structure Parts where
  scheme : List Char
  authority : List Char
  endpoint : List Char

/-- The authority and the endpoint behind a scheme. -/
def splitAuthority (rest : List Char) : List Char × List Char :=
  match HostPort.splitFirst '/' rest with
  | some parts => parts
  | none => ([], rest)

/-- Takes a raw target apart. -/
def split (raw : List Char) : Parts :=
  match splitSchemeMark raw with
  | some (scheme, rest) =>
    if isScheme scheme then
      let (authority, endpoint) := splitAuthority rest
      ⟨scheme.map Char.toLower, authority, endpoint⟩
    else
      ⟨defaultScheme, [], raw⟩
  | none => ⟨defaultScheme, [], raw⟩

/-- Parses the authority of a target, if there is one. -/
def parseAuthority (authority : List Char) (nameserverPort : String) :
    Except ParseError (Option String) :=
  if authority.isEmpty then
    .ok none
  else do
    let parts ← HostPort.parse (String.ofList authority) nameserverPort
    return some (HostPort.join parts.host parts.port)

/-- Parses a raw target. An error in the authority comes before one in the endpoint. -/
def parse (raw : String) (ports : DefaultPorts) : Except ParseError Target := do
  let parts := split raw.toList
  let authority ← parseAuthority parts.authority ports.nameserver
  let endpoint := String.ofList parts.endpoint
  let hostPort ← HostPort.parse endpoint ports.endpoint
  return ⟨String.ofList parts.scheme, authority, endpoint, hostPort.host, hostPort.port⟩

/-- The one address of a target whose host is an IP literal. -/
def literalAddress? (t : Target) : Option Address :=
  Address.ofIp? t.host t.port

/-- How a target appears in diagnostics. -/
def diagnostic (t : Target) : String :=
  let authority := match t.authority with
    | some a => "Some(" ++ Text.quoted a ++ ")"
    | none => "None"
  Text.closedRecord "Target" [
    ("scheme", Text.quoted t.scheme),
    ("authority", authority),
    ("endpoint", Text.quoted t.endpoint),
    ("host", Text.quoted t.host),
    ("port", Text.quoted t.port)]

end Target

end Dialer
