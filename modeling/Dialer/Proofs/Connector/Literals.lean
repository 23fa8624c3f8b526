import Dialer.Proofs.Connector.Connecting
import Dialer.Proofs.HostPort.Joining
import Dialer.Proofs.Ip.Sockets

/-!
# Connecting to an IP literal

A target that is an IP literal needs no resolution: connecting publishes the literal with its port,
once and for all (`Connector.fixes_literal`). If the target names no port (`Portless`), this is the
configured one, and the same goes for a nameserver. Validation reads a configured port as a number
(`isPort`), but it is written as it stands. So `default_ports_usable_iff`: what is written is a
socket address exactly if the port has no plus sign in front, which validation allows.
-/

namespace Dialer

open Resolver Text

/-! ## Configured ports -/

section

variable {text : String}

theorem isPort_iff : isPort text = true ↔ Numeral UInt16.size text.toList ∨
    ∃ rest, text.toList = '+' :: rest ∧ Numeral UInt16.size rest :=
  unsignedBelow?_isSome_iff

/-- A configured port is a numeral unless it has a sign. -/
theorem numeral_iff_unsigned (h : isPort text = true) :
    Numeral UInt16.size text.toList ↔ text.toList.head? ≠ some '+' := by
  rcases isPort_iff.mp h with hnumeral | ⟨rest, hsign, -⟩
  · refine ⟨fun _ hhead => ?_, fun _ => hnumeral⟩
    obtain ⟨rest, hsign⟩ := List.head?_eq_some_iff.mp hhead
    rw [hsign] at hnumeral
    exact plus_not_numeral rest hnumeral
  · rw [hsign]
    exact ⟨fun hnumeral => absurd hnumeral (plus_not_numeral rest), fun hhead => absurd rfl hhead⟩

/-- A configured port can stand behind a host. -/
theorem portForm_of_isPort (h : isPort text = true) : HostPort.IsPort text.toList := by
  have hnot {c : Char} (hdigit : isDigitOf 10 c = false) (hplus : c ≠ '+') : c ∉ text.toList := by
    intro hmem
    rcases isPort_iff.mp h with hnumeral | ⟨rest, hsign, hnumeral⟩
    · rw [hnumeral.digits c hmem] at hdigit
      cases hdigit
    · rw [hsign] at hmem
      have hrest := (List.mem_cons.mp hmem).resolve_left hplus
      rw [hnumeral.digits c hrest] at hdigit
      cases hdigit
  refine ⟨⟨hnot (by decide) (by decide), hnot (by decide) (by decide),
    hnot (by decide) (by decide)⟩, fun hnil => ?_⟩
  rcases isPort_iff.mp h with hnumeral | ⟨rest, hsign, -⟩
  · exact hnumeral.some hnil
  · rw [hnil] at hsign
    cases hsign

end

theorem Config.ports_of_valid {c : Config} (h : c.errors = []) :
    isPort c.resolver.defaultPort = true ∧ isPort c.resolver.dnsServerPort = true := by
  have hrequire {condition : Bool} {field : String} {fault : Fault} :
      require condition field fault = [] ↔ condition = true := by
    cases condition <;> simp [require]
  simp only [errors, resolverErrors, List.append_eq_nil_iff, hrequire] at h
  obtain ⟨⟨⟨⟨⟨⟨hendpoint, hnameserver⟩, -⟩, -⟩, -⟩, -⟩, -⟩ := h
  exact ⟨hendpoint, hnameserver⟩

/-! ## Literals without a port -/

/-- An IP literal without a port, bare or in brackets. -/
inductive Portless (ip : List Char) : List Char → Prop
  | bare : Portless ip ip
  | enclosed : Portless ip ('[' :: (ip ++ [']']))

namespace Portless

variable {ip text : List Char} {value : Ip}

theorem reads (h : Portless ip text) (hip : Ip.read? ip = some value) (default : List Char) :
    HostPort.Reads default text ip default := by
  have hliteral : (Ip.read? ip).isSome := Option.isSome_iff_exists.mpr ⟨value, hip⟩
  cases h with
  | bare => exact .literal hliteral
  | enclosed => exact .enclosed (HostPort.unbracketed_of_literal hliteral)

theorem slash_not_mem (h : Portless ip text) (hip : Ip.read? ip = some value) : '/' ∉ text := by
  have hslash : '/' ∉ ip := fun hmem => by
    have hnumeric := Ip.isNumeric_of_read? hip hmem
    simp [Ip.IsNumeric, isDigitOf, digitValue] at hnumeric
  cases h with
  | bare => exact hslash
  | enclosed => simp [hslash]

theorem ne_nil (h : Portless ip text) (hip : Ip.read? ip = some value) : text ≠ [] := by
  cases h with
  | bare =>
      rintro rfl
      cases hip
  | enclosed => exact List.cons_ne_nil _ _

end Portless

namespace Target

variable {ip : String} {value : Ip} {ports : DefaultPorts}

theorem split_of_slashless {text : List Char} (h : '/' ∉ text) :
    split text = ⟨defaultScheme, [], text⟩ := by
  unfold split
  cases hmark : splitSchemeMark text with
  | none => rfl
  | some parts =>
      obtain ⟨scheme, rest⟩ := parts
      rw [eq_of_splitSchemeMark hmark] at h
      simp at h

theorem parse_portless (hip : Ip.read? ip.toList = some value)
    (hd : HostPort.IsPort ports.endpoint.toList) {text : String}
    (h : Portless ip.toList text.toList) :
    parse text ports = .ok ⟨"dns", none, text, ip, ports.endpoint⟩ := by
  rw [parse_eq_ok_iff, split_of_slashless (h.slash_not_mem hip)]
  exact ⟨rfl, rfl, rfl, (HostPort.parse_ok_iff_reads hd).mpr (h.reads hip _)⟩

/-- A target with such an endpoint has the literal as its host, and the default port. -/
theorem literalAddress?_of_portless (hip : Ip.read? ip.toList = some value)
    (hd : HostPort.IsPort ports.endpoint.toList) {raw : String} {t : Target}
    (hparse : parse raw ports = .ok t) (h : Portless ip.toList t.endpoint.toList) :
    t.literalAddress? = some ⟨HostPort.join ip ports.endpoint⟩ := by
  have hread := (parse_eq_ok_iff.mp hparse).2.2.2
  have hliteral : HostPort.parse t.endpoint ports.endpoint = .ok ⟨ip, ports.endpoint⟩ :=
    (HostPort.parse_ok_iff_reads hd).mpr (h.reads hip _)
  rw [hread] at hliteral
  obtain ⟨hhost, hport⟩ := HostPort.mk.inj (Except.ok.inj hliteral)
  unfold literalAddress?
  rw [hhost, hport]
  exact Address.ofIp?_eq_some_iff.mpr ⟨Option.isSome_iff_exists.mpr ⟨value, hip⟩, rfl⟩

/-- Such a nameserver gets the default port. -/
theorem parseAuthority_portless (hip : Ip.read? ip.toList = some value) {d : String}
    (hd : HostPort.IsPort d.toList) {authority : List Char} (h : Portless ip.toList authority) :
    parseAuthority authority d = .ok (some (HostPort.join ip d)) := by
  refine parseAuthority_eq_ok_iff.mpr (.inr ⟨h.ne_nil hip, ⟨ip, d⟩, ?_, rfl⟩)
  rw [HostPort.parse_ok_iff_reads hd, String.toList_ofList]
  exact h.reads hip _

theorem authority_of_portless (hip : Ip.read? ip.toList = some value)
    (hd : HostPort.IsPort ports.nameserver.toList) {raw endpoint : String}
    {scheme authority : List Char} {hp : HostPort}
    (hraw : raw.toList = scheme ++ "://".toList ++ authority ++ '/' :: endpoint.toList)
    (hscheme : isScheme scheme = true) (h : Portless ip.toList authority)
    (hendpoint : HostPort.parse endpoint ports.endpoint = .ok hp) :
    ∃ t, parse raw ports = .ok t ∧ t.authority = some (HostPort.join ip ports.nameserver) := by
  have hsplit : split raw.toList = ⟨scheme.map Char.toLower, authority, endpoint.toList⟩ := by
    have hmark : "://".toList = [':', '/', '/'] := rfl
    rw [hraw, hmark, List.append_assoc, List.append_assoc]
    show split (scheme ++ ':' :: '/' :: '/' :: (authority ++ '/' :: endpoint.toList)) = _
    rw [split_append hscheme, splitAuthority_append (h.slash_not_mem hip)]
  refine ⟨⟨String.ofList (scheme.map Char.toLower), some (HostPort.join ip ports.nameserver),
    endpoint, hp.host, hp.port⟩, parse_eq_ok_iff.mpr ?_, rfl⟩
  rw [hsplit]
  exact ⟨String.toList_ofList, rfl, parseAuthority_portless hip hd h, hendpoint⟩

end Target

/-! ## Connecting -/

namespace Connector

/-- Connecting publishes one set, of one address, and leaves nothing behind that works on. -/
def Fixes (c : Connector) (name raw : String) (a : Address) : Prop :=
  ∃ c' connection, c.connect name raw = .ok c' ∧ c'.connection? name = some connection ∧
    connection.resolver = none ∧
    (c'.exchange.shared.box connection.box).published.map (·.addresses) = [[a]]

theorem fixes_literal {c : Connector} {raw : String} {t : Target} {options : LookupOptions}
    {a : Address} (hvalid : c.config.errors = [])
    (hparse : Target.parse raw c.config.resolver.ports = .ok t)
    (hbuilder : c.registry.get? t.scheme = some (.dns options)) (ha : t.literalAddress? = some a)
    (name : String) : c.Fixes name raw a := by
  obtain ⟨policy, hpolicy⟩ := Config.policy_of_valid hvalid
  let opened : Exchange := { c.exchange with shared := c.exchange.shared.openBox.2 }
  have hbuild : opened.build (.dns options) t c.exchange.shared.openBox.1 =
      .ok (none, opened.apply (·.produce .literal c.exchange.shared.openBox.1 [a])) := by
    simp only [Exchange.build, ha]
  obtain ⟨c', hconnect⟩ : ∃ c', c.connect name raw = .ok c' := by
    obtain ⟨_, _, -, hconnect, -⟩ := succeeds_of_build name hparse hbuilder hpolicy hbuild
    exact ⟨_, hconnect⟩
  obtain ⟨t', b, policy', resolver, x, hparse', hget, hbuild', -, houtboxes, -, hconnection⟩ :=
    Office.connect_makes hconnect
  obtain rfl := Except.ok.inj (hparse.symm.trans hparse')
  obtain rfl := Option.some.inj (hbuilder.symm.trans hget)
  obtain ⟨rfl, rfl⟩ := Prod.mk.inj (Except.ok.inj (hbuild.symm.trans hbuild'))
  obtain ⟨⟨box, hboxes, hpublished⟩, -⟩ := Office.build_opens hbuild
  have hbox : c'.exchange.shared.box c.exchange.shared.outboxes.length = box := by
    unfold Shared.box
    rw [houtboxes, hboxes]
    simp
  refine ⟨c', _, hconnect, (hconnection name).trans (if_pos rfl), rfl, ?_⟩
  show (c'.exchange.shared.box c.exchange.shared.outboxes.length).published.map (·.addresses) = [[a]]
  rw [hbox, hpublished, Office.offered, ha]
  rfl

/-- A new connector watches the hosts of targets that need it. -/
theorem New.resolves {config : Config} {byAuthority : Bool} {c : Connector}
    (h : New config byAuthority c) :
    c.registry.get? "dns" = some (.dns (options config byAuthority)) := by
  rw [h.registry, Registry.get?_of]
  simp [Builder.scheme]

/-- **A default port is usable unless it has a sign.** For every accepted configuration and every IP
literal:

* The literal, bare or in brackets, is a target with the configured port.
* Connecting to such a target, or to one with an authority besides, publishes a single address: the
  literal, in brackets if it has groups, a colon and the port as it is configured.
* Such a nameserver becomes the authority that is written alike, with its own port.
* What is written is a socket address exactly if the port is a numeral below `2 ^ 16`, digits and
  nothing else, and so exactly if it has no plus sign in front. -/
theorem default_ports_usable_iff (config : Config) (hvalid : config.validate = .ok config)
    (ip : String) (value : Ip) (hip : Ip.read? ip.toList = some value) :
    let ports := config.resolver.ports
    let written (port : String) := (if value.isV6 then "[" ++ ip ++ "]" else ip) ++ ":" ++ port
    (∀ text, Portless ip.toList text.toList →
      Target.parse text ports = .ok ⟨"dns", none, text, ip, ports.endpoint⟩) ∧
    (∀ (c : Connector) (options : LookupOptions) (name raw : String) (t : Target),
      c.config = config → c.registry.get? "dns" = some (.dns options) →
      Target.parse raw ports = .ok t → t.scheme = "dns" → Portless ip.toList t.endpoint.toList →
        c.Fixes name raw ⟨written ports.endpoint⟩) ∧
    (∀ (raw endpoint : String) (scheme authority : List Char) (hp : HostPort),
      raw.toList = scheme ++ "://".toList ++ authority ++ '/' :: endpoint.toList →
      Target.isScheme scheme = true → Portless ip.toList authority →
      HostPort.parse endpoint ports.endpoint = .ok hp →
        ∃ t, Target.parse raw ports = .ok t ∧ t.authority = some (written ports.nameserver)) ∧
    ∀ port ∈ [ports.endpoint, ports.nameserver],
      (Ip.isSocketAddress (written port).toList = true ↔ Numeral UInt16.size port.toList) ∧
        (Numeral UInt16.size port.toList ↔ port.toList.head? ≠ some '+') := by
  intro ports written
  have herrors := (Config.validate_eq_ok_iff.mp hvalid).1
  have hconfigured : isPort ports.endpoint = true ∧ isPort ports.nameserver = true :=
    Config.ports_of_valid herrors
  have hendpoint : HostPort.IsPort ports.endpoint.toList := portForm_of_isPort hconfigured.1
  have hnameserver : HostPort.IsPort ports.nameserver.toList := portForm_of_isPort hconfigured.2
  have hjoin (port : String) : written port = HostPort.join ip port :=
    Address.written_eq_join hip port
  refine ⟨fun text => Target.parse_portless hip hendpoint, ?_, ?_, ?_⟩
  · rintro c options name raw t rfl hbuilder hparse hscheme hportless
    rw [hjoin]
    exact fixes_literal herrors hparse (hscheme ▸ hbuilder)
      (Target.literalAddress?_of_portless hip hendpoint hparse hportless) name
  · intro raw endpoint scheme authority hp hraw hscheme hportless hparse
    rw [hjoin]
    exact Target.authority_of_portless hip hnameserver hraw hscheme hportless hparse
  · intro port hport
    have hisPort : isPort port = true := by
      rcases List.mem_pair.mp hport with rfl | rfl
      · exact hconfigured.1
      · exact hconfigured.2
    rw [hjoin, HostPort.join, String.toList_ofList]
    exact ⟨Ip.isSocketAddress_joinChars hip port.toList, numeral_iff_unsigned hisPort⟩

/-- For instance, a literal in brackets and with the standard port. -/
theorem default_ports_usable_iff_enclosed :
    Config.standard.validate = .ok .standard ∧
      (∃ value, Ip.read? "::1".toList = some value ∧ value.isV6 = true) ∧
      (∃ c, make .standard ⟨[]⟩ false (fun _ => 0) = .ok c ∧
        c.Fixes "a" "dns://10.0.0.1/[::1]" ⟨"[::1]:443"⟩) ∧
      Ip.isSocketAddress "[::1]:443".toList = true := by
  have hvalid : Config.standard.validate = .ok .standard :=
    Config.validate_eq_ok_iff.mpr ⟨by decide +kernel, rfl⟩
  obtain ⟨value, hip⟩ : ∃ value, Ip.read? "::1".toList = some value :=
    Option.isSome_iff_exists.mp (by decide)
  have hgroups : value.isV6 = true := (Ip.isV6_iff_colon_mem hip).mpr (by decide)
  obtain ⟨c, hmade, hnew⟩ :=
    new_of_valid (Config.validate_eq_ok_iff.mp hvalid).1 ⟨[]⟩ false fun _ => 0
  obtain ⟨-, hconnects, -, hsocket⟩ := default_ports_usable_iff .standard hvalid "::1" value hip
  have hparse : Target.parse "dns://10.0.0.1/[::1]" Config.standard.resolver.ports =
      .ok ⟨"dns", some "10.0.0.1:53", "[::1]", "::1", "443"⟩ := by decide
  have hfixes := hconnects c _ "a" _ _ hnew.configured hnew.resolves hparse rfl .enclosed
  obtain ⟨hnumeral, hunsigned⟩ := hsocket "443" (by decide)
  have husable := hnumeral.mpr (hunsigned.mpr (by decide))
  rw [hgroups] at hfixes husable
  exact ⟨hvalid, ⟨value, hip, hgroups⟩, ⟨c, hmade, hfixes⟩, husable⟩

/-- A default port with a sign is accepted, and gives an address that is none. -/
theorem signed_port_published :
    let config : Config :=
      { Config.standard with resolver := { ResolverConfig.standard with defaultPort := "+443" } }
    config.validate = .ok config ∧
      (∃ c, make config ⟨[]⟩ false (fun _ => 0) = .ok c ∧
        c.Fixes "c" "10.0.0.1" ⟨"10.0.0.1:+443"⟩) ∧
      Ip.isSocketAddress "10.0.0.1:+443".toList = false := by
  intro config
  have herrors : config.errors = [] := by decide +kernel
  obtain ⟨c, hmade, hnew⟩ := new_of_valid herrors ⟨[]⟩ false fun _ => 0
  have hparse : Target.parse "10.0.0.1" c.config.resolver.ports =
      .ok ⟨"dns", none, "10.0.0.1", "10.0.0.1", "+443"⟩ := by
    rw [hnew.configured]
    decide
  refine ⟨Config.validate_eq_ok_iff.mpr ⟨herrors, rfl⟩, ⟨c, hmade, ?_⟩, by decide⟩
  exact fixes_literal (hnew.configured ▸ herrors) hparse hnew.resolves (by decide) "c"

end Connector

end Dialer
