import Dialer.Ip.Reader

/-!
# Host and port

The forms of a host with an optional port:

* an IP literal, bare — the default port applies;
* `h:p` and `[h]:p`;
* `h` and `[h]` — the default port applies;
* `:p` and `[]:p` — the local host.

Everything here works on lists of characters (`HostPort.split`, `HostPort.read`);
`HostPort.parse` is the entry on texts. Splitting happens at the last colon, and a
text that does not split is tried once more with the default port behind it.
-/

namespace Dialer

/-- A host and a port, both as text. -/
structure HostPort where
  host : String
  port : String
deriving DecidableEq, Repr

/-- Why a text is no host with a port. -/
inductive SplitFault where
  | missingPort
  | missingBracket
  | tooManyColons
  | unexpectedOpening
  | unexpectedClosing
deriving DecidableEq, Repr

/-- The wording of a fault. -/
def SplitFault.text : SplitFault → String
  | .missingPort => "missing port in address"
  | .missingBracket => "missing ']' in address"
  | .tooManyColons => "too many colons in address"
  | .unexpectedOpening => "unexpected '[' in address"
  | .unexpectedClosing => "unexpected ']' in address"

/-- Why a target cannot be parsed. -/
inductive ParseError where
  /-- Nothing was given. -/
  | missingTarget
  /-- The separator stands at the end, without a port. -/
  | trailingSeparator
  /-- The text, also with the default port behind it, is no host with a port. -/
  | invalidTarget (target : String) (tried : String) (fault : SplitFault)
deriving DecidableEq, Repr

/-- The name of a parse error's variant. -/
def ParseError.variant : ParseError → String
  | .missingTarget => "MissingTarget"
  | .trailingSeparator => "TrailingSeparator"
  | .invalidTarget _ _ _ => "InvalidTarget"

/-- The message of a parse error. -/
def ParseError.message : ParseError → String
  | .missingTarget => "resolver: missing address"
  | .trailingSeparator => "resolver: missing port after port-separator colon"
  | .invalidTarget target tried fault =>
    "invalid target address " ++ target ++ ": address " ++ tried ++ ": " ++ fault.text

namespace HostPort

/-- The parts before and after the first occurrence of a character. -/
def splitFirst (c : Char) : List Char → Option (List Char × List Char)
  | [] => none
  | x :: rest =>
    if x = c then some ([], rest)
    else (splitFirst c rest).map fun p => (x :: p.1, p.2)

/-- The parts before and after the last occurrence of a character. -/
def splitLast (c : Char) : List Char → Option (List Char × List Char)
  | [] => none
  | x :: rest =>
    match splitLast c rest with
    | some (before, behind) => some (x :: before, behind)
    | none => if x = c then some ([], rest) else none

/-- Splits `[h]:p`, given what stands behind the opening bracket. -/
def splitBracketed (body : List Char) : Except SplitFault (List Char × List Char) :=
  match splitFirst ']' body with
  | none => .error .missingBracket
  | some (_, []) => .error .missingPort
  | some (host, c :: port) =>
    if c ≠ ':' then .error .missingPort
    else if ':' ∈ port then .error .tooManyColons
    else if '[' ∈ body then .error .unexpectedOpening
    else if ']' ∈ port then .error .unexpectedClosing
    else .ok (host, port)

/-- Splits `h:p`, given the parts around the last colon. -/
def splitPlain (host port : List Char) : Except SplitFault (List Char × List Char) :=
  if ':' ∈ host then .error .tooManyColons
  else if '[' ∈ host ++ port then .error .unexpectedOpening
  else if ']' ∈ host ++ port then .error .unexpectedClosing
  else .ok (host, port)

/-- Splits a host with a port. Either part may be empty. -/
def split (s : List Char) : Except SplitFault (List Char × List Char) :=
  match splitLast ':' s with
  | none => .error .missingPort
  | some (host, port) =>
    match s with
    | '[' :: body => splitBracketed body
    | _ => splitPlain host port

/-- The host that stands for an empty one. -/
def localhost : List Char :=
  "localhost".toList

/-- Why `read` fails. -/
inductive Refusal where
  | empty
  | noPort
  | unsplittable (fault : SplitFault)
deriving DecidableEq, Repr

/-- Reads a host with an optional port. -/
def read (s defaultPort : List Char) : Except Refusal (List Char × List Char) :=
  if s.isEmpty then .error .empty
  else if (Ip.read? s).isSome then .ok (s, defaultPort)
  else
    match split s with
    | .ok (host, port) =>
      if port.isEmpty then .error .noPort
      else .ok (if host.isEmpty then localhost else host, port)
    | .error _ =>
      match split (s ++ ':' :: defaultPort) with
      | .ok parts => .ok parts
      | .error fault => .error (.unsplittable fault)

/-- Parses a host with an optional port. -/
def parse (target defaultPort : String) : Except ParseError HostPort :=
  match read target.toList defaultPort.toList with
  | .ok (host, port) => .ok ⟨String.ofList host, String.ofList port⟩
  | .error .empty => .error .missingTarget
  | .error .noPort => .error .trailingSeparator
  | .error (.unsplittable fault) =>
    .error (.invalidTarget target (target ++ ":" ++ defaultPort) fault)

/-- Joins a host and a port; a host that contains a colon is put into brackets. -/
def joinChars (host port : List Char) : List Char :=
  if ':' ∈ host then '[' :: host ++ ']' :: ':' :: port
  else host ++ ':' :: port

/-- `joinChars` on texts. -/
def join (host port : String) : String :=
  String.ofList (joinChars host.toList port.toList)

end HostPort

end Dialer
