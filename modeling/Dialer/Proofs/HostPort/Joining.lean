import Dialer.Address
import Dialer.Proofs.Target

/-!
# What is joined is parsed to its parts

A host without brackets that is joined with a port is split again where it was joined
(`split_joinChars`): a host with colons stands in brackets, and any other has no colon to be split
at. No joined text is an IP literal, so the default port has no part in parsing it (`parse_join`).

The address of an IP literal is the literal joined with the port (`Address.ofIp?_eq_some_iff`).
Joining looks for a colon and the address at the family, which comes to the same for literals.
-/

namespace Dialer

namespace HostPort

section

variable {host port : List Char}

theorem split_joinChars (hhost : Unbracketed host) (hport : Plain port) :
    split (joinChars host port) = .ok (host, port) := by
  refine split_eq_ok_iff.mpr ⟨host, port, rfl, hport, ?_⟩
  unfold joinChars
  split
  · exact .inr ⟨by simp, hhost⟩
  · rename_i hcolon
    exact .inl ⟨rfl, hcolon, hhost.opening, hhost.closing⟩

theorem read_joinChars (hhost : Unbracketed host) (hsome : host ≠ []) (hport : IsPort port)
    (default : List Char) : read (joinChars host port) default = .ok (host, port) := by
  have hempty : port.isEmpty = false := by simpa using hport.some
  have hlocal : orLocalhost host = host := if_neg (by simpa using hsome)
  rw [read_of_split (split_joinChars hhost hport.toPlain), hempty, hlocal]
  rfl

end

theorem parse_join {host port : String} (hhost : Unbracketed host.toList) (hsome : host ≠ "")
    (hport : IsPort port.toList) (default : String) :
    parse (join host port) default = .ok ⟨host, port⟩ := by
  have hne : host.toList ≠ [] := fun hnil => hsome (String.toList_eq_nil_iff.mp hnil)
  rw [parse_eq_ok_iff, join, String.toList_ofList]
  exact read_joinChars hhost hne hport default.toList

/-- The parts of a parsed text can be joined, unless the host is empty. -/
theorem parse_join_of_parse {text d : String} {hp : HostPort} (hd : IsPort d.toList)
    (hparse : parse text d = .ok hp) (hsome : hp.host ≠ "") (default : String) :
    parse (join hp.host hp.port) default = .ok hp := by
  have hreads := (parse_ok_iff_reads hd).mp hparse
  exact parse_join hreads.host_unbracketed hsome (hreads.port_isPort hd) default

end HostPort

namespace Address

variable {ip port : String}

/-- A literal is written in brackets if it has groups, and so if it has a colon. -/
theorem written_eq_join {value : Ip} (h : Ip.read? ip.toList = some value) (port : String) :
    (if value.isV6 then "[" ++ ip ++ "]" else ip) ++ ":" ++ port = HostPort.join ip port := by
  unfold HostPort.join HostPort.joinChars
  rw [← String.toList_inj, String.toList_ofList]
  by_cases hcolon : ':' ∈ ip.toList
  · rw [if_pos ((Ip.isV6_iff_colon_mem h).mpr hcolon), if_pos hcolon]
    simp [String.toList_append]
  · rw [if_neg (mt (Ip.isV6_iff_colon_mem h).mp hcolon), if_neg hcolon]
    simp [String.toList_append]

/-- The address of an IP literal is the literal joined with the port, and there is none of any other
text. -/
theorem ofIp?_eq_some_iff {a : Address} :
    ofIp? ip port = some a ↔ (Ip.read? ip.toList).isSome ∧ a = ⟨HostPort.join ip port⟩ := by
  unfold ofIp? hostOfIp?
  cases hread : Ip.read? ip.toList with
  | none => simp
  | some value =>
      rw [Option.map_some, Option.map_some, written_eq_join hread]
      exact ⟨fun h => ⟨rfl, (Option.some.inj h).symm⟩, fun h => congrArg some h.2.symm⟩

/-- The address of an IP literal and a port is parsed to them. -/
theorem parse_ofIp? {a : Address} (ha : ofIp? ip port = some a)
    (hport : HostPort.IsPort port.toList) (default : String) :
    HostPort.parse a.text default = .ok ⟨ip, port⟩ := by
  obtain ⟨hliteral, rfl⟩ := ofIp?_eq_some_iff.mp ha
  have hsome : ip ≠ "" := mt String.toList_eq_nil_iff.mpr (HostPort.ne_nil_of_literal hliteral)
  exact HostPort.parse_join (HostPort.unbracketed_of_literal hliteral) hsome hport default

end Address

namespace HostPort

/-- **Host and port survive joining.** A host that is not empty and has no brackets, joined with a
port, is parsed to the two again, whatever the default port. So it is with what a text or a target
has been parsed to, where the host is not empty, and with the address of an IP literal. -/
theorem joined_parts_survive :
    (∀ host port default : String, Unbracketed host.toList → host ≠ "" → IsPort port.toList →
      parse (join host port) default = .ok ⟨host, port⟩) ∧
    (∀ (text d : String) (hp : HostPort), IsPort d.toList → parse text d = .ok hp →
      hp.host ≠ "" → parse (join hp.host hp.port) d = .ok hp) ∧
    (∀ (raw : String) (ports : DefaultPorts) (t : Target), IsPort ports.endpoint.toList →
      Target.parse raw ports = .ok t → t.host ≠ "" →
        parse (join t.host t.port) ports.endpoint = .ok ⟨t.host, t.port⟩ ∧
          ∀ a, t.literalAddress? = some a → parse a.text ports.endpoint = .ok ⟨t.host, t.port⟩) ∧
    ∀ (ip port default : String) (a : Address), IsPort port.toList →
      Address.ofIp? ip port = some a → parse a.text default = .ok ⟨ip, port⟩ := by
  refine ⟨fun _ _ default hhost hsome hport => parse_join hhost hsome hport default,
    fun _ d _ hd hparse hsome => parse_join_of_parse hd hparse hsome d,
    fun raw ports t hd hparse hsome => ?_,
    fun _ _ default _ hport ha => Address.parse_ofIp? ha hport default⟩
  obtain ⟨-, -, -, hhostPort⟩ := Target.parse_eq_ok_iff.mp hparse
  have hport := ((parse_ok_iff_reads hd).mp hhostPort).port_isPort hd
  exact ⟨parse_join_of_parse hd hhostPort hsome ports.endpoint,
    fun a ha => Address.parse_ofIp? ha hport ports.endpoint⟩

/-- For instance, a host with a colon that is no literal, and a literal in brackets. -/
theorem joined_parts_survive_colon :
    Unbracketed "é:x".toList ∧ "é:x" ≠ "" ∧ IsPort "443".toList ∧
      join "é:x" "443" = "[é:x]:443" ∧ parse (join "é:x" "443") ":" = .ok ⟨"é:x", "443"⟩ ∧
      parse "[::1]" "443" = .ok ⟨"::1", "443"⟩ ∧ join "::1" "443" = "[::1]:443" ∧
      parse (join "::1" "443") "443" = .ok ⟨"::1", "443"⟩ ∧
      Target.parse "dns://x/::1" ⟨"443", "53"⟩ = .ok ⟨"dns", some "x:53", "::1", "::1", "443"⟩ ∧
      Address.ofIp? "::1" "443" = some ⟨"[::1]:443"⟩ ∧
      parse "[::1]:443" "443" = .ok ⟨"::1", "443"⟩ := by
  have hhost : Unbracketed "é:x".toList := ⟨by decide, by decide⟩
  have hport : IsPort "443".toList := ⟨⟨by decide, by decide, by decide⟩, by decide⟩
  have hparse : parse "[::1]" "443" = .ok ⟨"::1", "443"⟩ := by decide
  have htarget : Target.parse "dns://x/::1" ⟨"443", "53"⟩ =
      .ok ⟨"dns", some "x:53", "::1", "::1", "443"⟩ := by decide
  have haddress : Address.ofIp? "::1" "443" = some ⟨"[::1]:443"⟩ := by decide
  obtain ⟨hjoined, htexts, htargets, -⟩ := joined_parts_survive
  have hagain := htexts "[::1]" "443" ⟨"::1", "443"⟩ hport hparse (by decide)
  have hliteral := (htargets _ ⟨"443", "53"⟩ _ hport htarget (by decide)).2 _ haddress
  have hsome : "é:x" ≠ "" := by decide
  have hcolon : join "é:x" "443" = "[é:x]:443" := by decide
  have hgroups : join "::1" "443" = "[::1]:443" := by decide
  exact ⟨hhost, hsome, hport, hcolon, hjoined "é:x" "443" ":" hhost hsome hport,
    hparse, hgroups, hagain, htarget, haddress, hliteral⟩

end HostPort

end Dialer
