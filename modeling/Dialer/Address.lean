import Dialer.HostPort
import Dialer.Text.Json

/-!
# Resolved addresses

An address is the text of a host and a port. Addresses made from an IP bracket those
of eight groups (`Address.ofIp?`), so equal addresses have equal parts; a pass-through
endpoint is an address as it stands.
-/

namespace Dialer

/-- A resolved address. -/
structure Address where
  text : String
deriving DecidableEq, Repr

namespace Address

/-- How an IP literal is written as a host: as it stands, in brackets if it has eight
groups. Nothing for a text that is no IP literal. -/
def hostOfIp? (ip : String) : Option String :=
  (Ip.read? ip.toList).map fun value => if value.isV6 then "[" ++ ip ++ "]" else ip

/-- The address of an IP literal and a port. -/
def ofIp? (ip port : String) : Option Address :=
  (hostOfIp? ip).map fun host => ⟨host ++ ":" ++ port⟩

/-- There is an address for each IP literal, whatever the port. -/
theorem isSome_ofIp? (ip port : String) :
    (ofIp? ip port).isSome = (Ip.read? ip.toList).isSome := by
  rw [ofIp?, hostOfIp?, Option.isSome_map, Option.isSome_map]

/-- An address as JSON. -/
def toJson (a : Address) : String :=
  Text.jsonString a.text

end Address

end Dialer
