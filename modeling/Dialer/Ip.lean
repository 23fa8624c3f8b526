/-!
# Internet addresses

The two families of numeric addresses. How they are read is in `Dialer.Ip.Reader`,
their canonical text in `Dialer.Ip.Canonical`.
-/

namespace Dialer

/-- A numeric internet address. -/
inductive Ip where
  | v4 (octets : Vector UInt8 4)
  | v6 (groups : Vector UInt16 8)
deriving DecidableEq

namespace Ip

/-- The address of the family with four octets. -/
def ofOctets (octets : List Nat) : Ip :=
  .v4 (Vector.ofFn fun i => UInt8.ofNat (octets.getD i.val 0))

/-- The address of the family with eight groups. -/
def ofGroups (groups : List Nat) : Ip :=
  .v6 (Vector.ofFn fun i => UInt16.ofNat (groups.getD i.val 0))

/-- Is it an address of eight groups? -/
def isV6 : Ip → Bool
  | .v4 _ => false
  | .v6 _ => true

end Ip

end Dialer
