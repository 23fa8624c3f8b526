import Dialer.Proofs.HostPort.Joining
import Dialer.Resolver.Watch
import Mathlib.Data.List.Nodup

/-!
# Addresses and their parts

A host without brackets and a port, whatever text the port is, are read off the text that they are
joined to (`HostPort.unjoin_joinChars`). If it begins with a bracket, the host ends at the first
closing bracket, and else at the first colon. Colons and brackets of the port come behind these.

An IP literal has no brackets. So the address of a literal and a port has no other literal and no
other port for its parts (`Address.eq_of_ofIp?`). Literal targets, answers of lookups and
nameservers are written by joining, so that each is spelled as any other with its host and its port
(`Address.parts_identified`).
-/

namespace Dialer

namespace HostPort

/-- The parts of a joined text. The character behind a closing bracket is the colon. -/
def unjoinChars : List Char → Option (List Char × List Char)
  | '[' :: body => (splitFirst ']' body).map fun parts => (parts.1, parts.2.tail)
  | s => splitFirst ':' s

section

variable {host host' port port' : List Char}

theorem unjoinChars_of_head {s : List Char} (h : s.head? ≠ some '[') :
    unjoinChars s = splitFirst ':' s := by
  unfold unjoinChars
  split
  · exact absurd rfl h
  · rfl

theorem unjoin_joinChars (h : Unbracketed host) (port : List Char) :
    unjoinChars (joinChars host port) = some (host, port) := by
  unfold joinChars
  split
  · -- the host has no closing bracket, so the first one is the one put behind it
    show (splitFirst ']' (host ++ ']' :: ':' :: port)).map _ = _
    rw [splitFirst_append h.closing]
    rfl
  · rename_i hcolon
    rw [unjoinChars_of_head (head?_ne_opening h.opening port), splitFirst_append hcolon]

theorem joinChars_inj (h : Unbracketed host) (h' : Unbracketed host')
    (heq : joinChars host port = joinChars host' port') : host = host' ∧ port = port' := by
  have hparts := congrArg unjoinChars heq
  rw [unjoin_joinChars h, unjoin_joinChars h'] at hparts
  exact Prod.mk.inj (Option.some.inj hparts)

end

/-- Hosts without brackets are told apart from their ports by the text that they are joined to. -/
theorem join_inj {host host' port port' : String} (h : Unbracketed host.toList)
    (h' : Unbracketed host'.toList) (heq : join host port = join host' port') :
    host = host' ∧ port = port' := by
  obtain ⟨hhost, hport⟩ := joinChars_inj h h' (String.ofList_injective heq)
  exact ⟨String.toList_inj.mp hhost, String.toList_inj.mp hport⟩

/-- With brackets in a host they are not. -/
example : join "x:y" "1" = join "[x" "y]:1" := by decide

end HostPort

namespace Address

variable {ip ip' port port' : String} {a : Address}

theorem text_of_ofIp? (h : ofIp? ip port = some a) : a.text = HostPort.join ip port := by
  obtain ⟨-, rfl⟩ := ofIp?_eq_some_iff.mp h
  rfl

theorem eq_of_ofIp? (h : ofIp? ip port = some a) (h' : ofIp? ip' port' = some a) :
    ip = ip' ∧ port = port' := by
  have hjoined := (text_of_ofIp? h).symm.trans (text_of_ofIp? h')
  have hip := HostPort.unbracketed_of_literal (ofIp?_eq_some_iff.mp h).1
  have hip' := HostPort.unbracketed_of_literal (ofIp?_eq_some_iff.mp h').1
  exact HostPort.join_inj hip hip' hjoined

theorem ofIp?_eq_ite (ip port : String) :
    ofIp? ip port =
      if (Ip.read? ip.toList).isSome then some ⟨HostPort.join ip port⟩ else none := by
  refine Option.ext fun a => ofIp?_eq_some_iff.trans ?_
  split
  · rename_i hliteral
    simp [hliteral, eq_comm]
  · rename_i hother
    simp [hother]

end Address

namespace Resolver.Watch

/-- An answer has an address for each IP literal among its entries, in their order. -/
theorem addressesOf_eq_map (port : String) (entries : List String) :
    addressesOf port entries =
      (entries.filter fun ip => (Ip.read? ip.toList).isSome).map
        fun ip => ⟨HostPort.join ip port⟩ := by
  rw [← List.filterMap_eq_map, List.filterMap_filter]
  exact List.filterMap_congr fun ip _ => Address.ofIp?_eq_ite ip port

/-- The addresses of an answer repeat only where its entries do. -/
theorem nodup_addressesOf_iff {port : String} {entries : List String} :
    (addressesOf port entries).Nodup ↔
      (entries.filter fun ip => (Ip.read? ip.toList).isSome).Nodup := by
  rw [addressesOf_eq_map]
  refine ⟨List.Nodup.of_map _, List.Nodup.map_on fun ip hip ip' hip' heq => ?_⟩
  have haddress : Address.ofIp? ip port = some ⟨HostPort.join ip port⟩ :=
    Address.ofIp?_eq_some_iff.mpr ⟨(List.mem_filter.mp hip).2, rfl⟩
  have haddress' : Address.ofIp? ip' port = some ⟨HostPort.join ip port⟩ :=
    Address.ofIp?_eq_some_iff.mpr ⟨(List.mem_filter.mp hip').2, heq⟩
  exact (Address.eq_of_ofIp? haddress haddress').1

end Resolver.Watch

namespace Address

/-- **Addresses identify their parts.** The address of an IP literal with a port, whatever text the
port is, is that of no other literal and no other port. It is the text of the two joined, and so all
places write the same: the address of a target with a literal for its host, the addresses among the
entries of an answer, and the nameserver of a target, which has the text of its address if its host
is a literal. -/
theorem parts_identified :
    (∀ (ip ip' port port' : String) (a : Address), ofIp? ip port = some a →
      ofIp? ip' port' = some a → ip = ip' ∧ port = port') ∧
    (∀ ip port : String, (ofIp? ip port).isSome = (Ip.read? ip.toList).isSome) ∧
    (∀ (ip port : String) (a : Address), ofIp? ip port = some a →
      a.text = HostPort.join ip port) ∧
    (∀ (t : Target) (a : Address), t.literalAddress? = some a →
      a.text = HostPort.join t.host t.port) ∧
    (∀ (port : String) (entries : List String),
      (Resolver.Watch.addressesOf port entries).map Address.text =
        (entries.filter fun ip => (Ip.read? ip.toList).isSome).map
          fun ip => HostPort.join ip port) ∧
    ∀ (raw : String) (ports : DefaultPorts) (t : Target) (nameserver : String),
      Target.parse raw ports = .ok t → t.authority = some nameserver →
        ∃ hp, HostPort.parse (String.ofList (Target.split raw.toList).authority)
            ports.nameserver = .ok hp ∧
          nameserver = HostPort.join hp.host hp.port ∧
          ∀ a, ofIp? hp.host hp.port = some a → nameserver = a.text := by
  refine ⟨fun _ _ _ _ _ h h' => eq_of_ofIp? h h', isSome_ofIp?,
    fun _ _ _ h => text_of_ofIp? h, fun _ _ h => text_of_ofIp? h, fun port entries => ?_,
    fun raw ports t nameserver hparse hnameserver => ?_⟩
  · rw [Resolver.Watch.addressesOf_eq_map, List.map_map]
    rfl
  · obtain ⟨-, -, hauthority, -⟩ := Target.parse_eq_ok_iff.mp hparse
    rw [hnameserver] at hauthority
    rcases Target.parseAuthority_eq_ok_iff.mp hauthority with ⟨-, hnone⟩ | ⟨-, hp, hread, hjoin⟩
    · cases hnone
    · obtain rfl := Option.some.inj hjoin
      exact ⟨hp, hread, rfl, fun a ha => (text_of_ofIp? ha).symm⟩

/-- For instance, a literal that ends in octets, with a bracket and a colon in its port, is told
from the octets alone; a target with a literal for its host, and one for its nameserver. -/
theorem parts_identified_octets :
    ofIp? "::1.2.3.4" "]:80" = some ⟨"[::1.2.3.4]:]:80"⟩ ∧
      "[::1.2.3.4]:]:80" = HostPort.join "::1.2.3.4" "]:80" ∧
      ofIp? "1.2.3.4" ":]:80" = some ⟨"1.2.3.4::]:80"⟩ ∧
      ofIp? "1.2.3.4" ":]:80" ≠ ofIp? "::1.2.3.4" "]:80" ∧
      Target.parse "dns://[::1]/1.2.3.4" ⟨"443", "53"⟩ =
        .ok ⟨"dns", some "[::1]:53", "1.2.3.4", "1.2.3.4", "443"⟩ ∧
      "1.2.3.4:443" = HostPort.join "1.2.3.4" "443" ∧
      "[::1]:53" = HostPort.join "::1" "53" := by
  have hgroups : ofIp? "::1.2.3.4" "]:80" = some ⟨"[::1.2.3.4]:]:80"⟩ := by decide
  have hoctets : ofIp? "1.2.3.4" ":]:80" = some ⟨"1.2.3.4::]:80"⟩ := by decide
  have htarget : Target.parse "dns://[::1]/1.2.3.4" ⟨"443", "53"⟩ =
      .ok ⟨"dns", some "[::1]:53", "1.2.3.4", "1.2.3.4", "443"⟩ := by decide
  obtain ⟨hparts, -, htext, hliteral, -, hnameserver⟩ := parts_identified
  have hother : ofIp? "1.2.3.4" ":]:80" ≠ ofIp? "::1.2.3.4" "]:80" := fun hsame =>
    absurd (hparts _ _ _ _ _ (hsame.trans hgroups) hgroups).1 (by decide)
  have hhost := hliteral ⟨"dns", some "[::1]:53", "1.2.3.4", "1.2.3.4", "443"⟩ ⟨"1.2.3.4:443"⟩
    (by decide)
  obtain ⟨hp, hread, hjoined, -⟩ := hnameserver _ _ _ _ htarget rfl
  obtain rfl : hp = ⟨"::1", "53"⟩ := Except.ok.inj (hread.symm.trans (by decide))
  exact ⟨hgroups, htext _ _ _ hgroups, hoctets, hother, htarget, hhost, hjoined⟩

end Address

end Dialer
