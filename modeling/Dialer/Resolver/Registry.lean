import Dialer.ConnectError
import Dialer.Resolver.Exchange

/-!
# Builders and their registry

A builder turns a target into a resolver that publishes into an outbox. There are three
kinds: one publishes the endpoint as it stands, one the address of an IP literal or else
watches the host, and one a fixed set. A resolver is inert, or it is a watch.

The registry finds the builder for a scheme, whatever the case of its ASCII letters; the
builder registered last counts. The schemes it knows are sorted.
-/

namespace Dialer.Resolver

/-- How hosts are looked up. -/
structure LookupOptions where
  /-- How long a lookup may take. -/
  limit : Duration
  /-- Does a target's authority have a backend of its own? -/
  byAuthority : Bool
  /-- What the watches stop with, if with anything. -/
  shutdown : Option Token
deriving DecidableEq

/-- What makes resolvers. -/
inductive Builder where
  | passthrough
  | dns (options : LookupOptions)
  /-- Publishes the addresses once, or knows no scheme but the one it complains of. -/
  | fixed (scheme : String) (addresses : List Address) (complaint : Option String)
deriving DecidableEq

/-- The scheme of a builder, in its own spelling. -/
def Builder.scheme : Builder → String
  | .passthrough => "passthrough"
  | .dns _ => "dns"
  | .fixed scheme _ _ => scheme

/-- A resolver: the number of a watch, or nothing that works. -/
abbrev Handle := Option Nat

namespace LookupOptions

/-- Five seconds for a lookup, one backend for all, and no shutdown. -/
def usual : LookupOptions := ⟨.ofSecs 5, false, none⟩

/-- The backend for a target. -/
def backendFor (o : LookupOptions) (t : Target) : Backend :=
  match t.authority with
  | some authority => if o.byAuthority then .nameserver authority else .standard
  | none => .standard

/-- What a watch for a target is to resolve. -/
def assignment (o : LookupOptions) (t : Target) : Assignment :=
  ⟨t.endpoint, t.host, t.port, o.backendFor t, o.limit⟩

end LookupOptions

namespace Exchange

/-- The token for a new watch. -/
def watchToken (x : Exchange) (o : LookupOptions) : Token × Exchange :=
  match o.shutdown with
  | some above => x.childToken above
  | none => x.rootToken

/-- Watches the host of a target. -/
def watchTarget (x : Exchange) (o : LookupOptions) (t : Target) (box : Nat) :
    Handle × Exchange :=
  let (token, x) := x.watchToken o
  let (n, x) := x.watch (o.assignment t) token box
  (some n, x)

/-- Makes a resolver that publishes into an outbox. -/
def build (x : Exchange) (b : Builder) (t : Target) (box : Nat) :
    Except ConnectError (Handle × Exchange) :=
  match b with
  | .passthrough => .ok (none, x.apply (·.produce .passthrough box [⟨t.endpoint⟩]))
  | .dns options =>
    match t.literalAddress? with
    | some address => .ok (none, x.apply (·.produce .literal box [address]))
    | none => .ok (x.watchTarget options t box)
  | .fixed _ addresses none => .ok (none, x.apply (·.publish box addresses))
  | .fixed _ _ (some complaint) => .error (.unknownScheme complaint)

/-- Asks a resolver to resolve again. -/
def refresh (x : Exchange) (r : Handle) (times : Nat) : Exchange :=
  match r with
  | some n => requests n times x
  | none => x

/-- Closes a resolver. -/
def close (x : Exchange) (r : Handle) : Exchange :=
  match r.bind (x.watches[·]?) with
  | some w => x.cancel w.token
  | none => x

/-- Tries a builder on a raw target, with the usual ports: a resolver is made, asked once more
and closed. What it published is in the outbox. -/
def trial (x : Exchange) (b : Builder) (raw : String) :
    Except ConnectError (Exchange × Outbox) := do
  let target ← (Target.parse raw ⟨"443", "53"⟩).mapError ConnectError.parse
  let (box, shared) := x.shared.openBox
  let (resolver, x) ← { x with shared }.build b target box
  let x := ((x.settle.refresh resolver 1).settle.close resolver).settle
  return (x, x.shared.box box)

end Exchange

/-- The builders known, by scheme in lower case. -/
structure Registry where
  builders : List (String × Builder)

namespace Registry

/-- No builder known. -/
def empty : Registry := ⟨[]⟩

/-- A scheme in lower case; letters beyond ASCII stay as they are. -/
def keyOf (scheme : String) : String :=
  scheme.map Char.toLower

/-- Registers a builder under its scheme. -/
def register (r : Registry) (b : Builder) : Registry :=
  let key := keyOf b.scheme
  ⟨(key, b) :: r.builders.filter (·.1 != key)⟩

/-- The builder for a scheme. -/
def get? (r : Registry) (scheme : String) : Option Builder :=
  r.builders.lookup (keyOf scheme)

/-- The schemes known, sorted. -/
def schemes (r : Registry) : List String :=
  (r.builders.map (·.1)).mergeSort fun a b => !(b < a)

end Registry

end Dialer.Resolver
