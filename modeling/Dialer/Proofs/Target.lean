import Dialer.Target
import Dialer.Proofs.HostPort.Parsing
import Mathlib.Data.List.Infix

/-!
# What a target is parsed to

`parse_eq_ok_iff` says what a parsed target is, part by part. Two results follow:

* `host_eq_empty_iff` — the host is empty only if the endpoint is `[]`, and the same goes for the
  authority;
* `canonical_roundtrip` — a target is parsed again from its parts, put together with nothing left
  out, its endpoint stands at the end of the text, and the letters of the scheme may change their
  case.
-/

namespace Dialer.Target

open HostPort

variable {raw : String} {ports : DefaultPorts} {t : Target} {scheme rest s : List Char}

/-! ## Letters -/

theorem toNat_toLower (c : Char) :
    c.toLower.toNat = if 65 ≤ c.toNat ∧ c.toNat ≤ 90 then c.toNat + 32 else c.toNat := by
  unfold Char.toLower
  split
  · rename_i h
    simp only [ge_iff_le, UInt32.le_iff_toNat_le] at h
    change 65 ≤ c.toNat ∧ c.toNat ≤ 90 at h
    change (c.val + 32).toNat = _
    rw [if_pos h, UInt32.toNat_add]
    change (c.toNat + 32) % 4294967296 = _
    omega
  · rename_i h
    simp only [ge_iff_le, UInt32.le_iff_toNat_le] at h
    change ¬(65 ≤ c.toNat ∧ c.toNat ≤ 90) at h
    rw [if_neg h]

theorem isAlpha_iff (c : Char) :
    c.isAlpha = true ↔ 65 ≤ c.toNat ∧ c.toNat ≤ 90 ∨ 97 ≤ c.toNat ∧ c.toNat ≤ 122 := by
  have halpha : c.isAlpha = (decide (c.val ≥ 'A'.val ∧ c.val ≤ 'Z'.val) ||
      (decide (c.val ≥ 'a'.val) && decide (c.val ≤ 'z'.val))) := rfl
  rw [halpha]
  simp [UInt32.le_iff_toNat_le]

theorem isDigit_iff (c : Char) : c.isDigit = true ↔ 48 ≤ c.toNat ∧ c.toNat ≤ 57 := by
  have hdigit : c.isDigit = (decide (c.val ≥ '0'.val) && decide (c.val ≤ '9'.val)) := rfl
  rw [hdigit]
  simp [UInt32.le_iff_toNat_le]

theorem toLower_toLower (c : Char) : c.toLower.toLower = c.toLower := by
  rw [← Char.toNat_inj, toNat_toLower c.toLower, toNat_toLower c]
  split
  · rw [if_neg (by omega)]
  · rfl

/-- A character of a scheme beside the first. -/
def isSchemeChar (c : Char) : Bool :=
  c.isAlphanum || c == '+' || c == '-' || c == '.'

theorem isAlpha_toLower (c : Char) : c.toLower.isAlpha = c.isAlpha := by
  rw [Bool.eq_iff_iff, isAlpha_iff, isAlpha_iff, toNat_toLower]
  split <;> omega

theorem isSchemeChar_iff (c : Char) :
    isSchemeChar c = true ↔ 65 ≤ c.toNat ∧ c.toNat ≤ 90 ∨ 97 ≤ c.toNat ∧ c.toNat ≤ 122 ∨
      48 ≤ c.toNat ∧ c.toNat ≤ 57 ∨ c.toNat = 43 ∨ c.toNat = 45 ∨ c.toNat = 46 := by
  have hplus : (c == '+') = true ↔ c.toNat = 43 := by rw [beq_iff_eq, ← Char.toNat_inj]; rfl
  have hminus : (c == '-') = true ↔ c.toNat = 45 := by rw [beq_iff_eq, ← Char.toNat_inj]; rfl
  have hdot : (c == '.') = true ↔ c.toNat = 46 := by rw [beq_iff_eq, ← Char.toNat_inj]; rfl
  unfold isSchemeChar Char.isAlphanum
  simp only [Bool.or_eq_true, isAlpha_iff, isDigit_iff, hplus, hminus, hdot, or_assoc]

theorem isSchemeChar_toLower (c : Char) : isSchemeChar c.toLower = isSchemeChar c := by
  rw [Bool.eq_iff_iff, isSchemeChar_iff, isSchemeChar_iff, toNat_toLower]
  split <;> omega

theorem isScheme_cons (c : Char) (s : List Char) :
    isScheme (c :: s) = (c.isAlpha && s.all isSchemeChar) := rfl

/-- The case of its letters does not make a scheme. -/
theorem isScheme_lower (s : List Char) : isScheme (s.map Char.toLower) = isScheme s := by
  cases s with
  | nil => rfl
  | cons c s =>
      rw [List.map_cons, isScheme_cons, isScheme_cons, isAlpha_toLower, List.all_map]
      exact congrArg (c.isAlpha && s.all ·) (funext isSchemeChar_toLower)

theorem lower_lower (s : List Char) :
    (s.map Char.toLower).map Char.toLower = s.map Char.toLower := by
  rw [List.map_map]
  exact congrArg (s.map ·) (funext toLower_toLower)

theorem colon_not_mem_of_isScheme (h : isScheme s = true) : ':' ∉ s := by
  cases s with
  | nil => cases h
  | cons c s =>
      rw [isScheme_cons, Bool.and_eq_true, List.all_eq_true] at h
      intro hcolon
      rcases List.mem_cons.mp hcolon with rfl | hcolon
      · exact absurd h.1 (by decide)
      · exact absurd (h.2 _ hcolon) (by decide)

/-! ## The parts of a raw target -/

theorem splitSchemeMark_append (hscheme : ':' ∉ scheme) (rest : List Char) :
    splitSchemeMark (scheme ++ ':' :: '/' :: '/' :: rest) = some (scheme, rest) := by
  induction scheme with
  | nil => rfl
  | cons c scheme ih =>
      obtain ⟨hc, hrest⟩ := not_or.mp fun h => hscheme (List.mem_cons.mpr h)
      rw [List.cons_append, splitSchemeMark, ih hrest]
      · rfl
      · rintro tail rfl
        exact absurd rfl hc

theorem eq_of_splitSchemeMark (h : splitSchemeMark s = some (scheme, rest)) :
    s = scheme ++ ':' :: '/' :: '/' :: rest := by
  induction s using splitSchemeMark.induct generalizing scheme with
  | case1 => cases h
  | case2 tail =>
      rw [splitSchemeMark] at h
      obtain ⟨rfl, rfl⟩ := Prod.mk.inj (Option.some.inj h)
      rfl
  | case3 c tail hmark ih =>
      rw [splitSchemeMark] at h
      · obtain ⟨⟨front, back⟩, hparts, hs⟩ := Option.map_eq_some_iff.mp h
        obtain ⟨rfl, rfl⟩ := Prod.mk.inj hs
        rw [ih hparts, List.cons_append]
      · exact hmark

/-- The authority ends at the first slash, and the endpoint is all behind it. -/
theorem splitAuthority_append {authority : List Char} (hslash : '/' ∉ authority)
    (endpoint : List Char) :
    splitAuthority (authority ++ '/' :: endpoint) = (authority, endpoint) := by
  unfold splitAuthority
  rw [splitFirst_append hslash]

theorem splitAuthority_parts (rest : List Char) :
    '/' ∉ (splitAuthority rest).1 ∧ (splitAuthority rest).2 <:+ rest := by
  unfold splitAuthority
  split
  · rename_i parts hparts
    obtain ⟨authority, endpoint⟩ := parts
    obtain ⟨rfl, hslash⟩ := splitFirst_eq_some_iff.mp hparts
    exact ⟨hslash, authority ++ ['/'], by simp⟩
  · exact ⟨List.not_mem_nil, List.suffix_rfl⟩

theorem split_of_scheme (hmark : splitSchemeMark s = some (scheme, rest))
    (hscheme : isScheme scheme = true) :
    split s = ⟨scheme.map Char.toLower, (splitAuthority rest).1, (splitAuthority rest).2⟩ := by
  unfold split
  rw [hmark]
  exact if_pos hscheme

/-- The parts of a raw target: a scheme in lower case, an authority without slashes, and an endpoint
that stands at the end. -/
structure Parts.Formed (raw : List Char) (parts : Parts) : Prop where
  scheme : isScheme parts.scheme = true
  lower : parts.scheme.map Char.toLower = parts.scheme
  authority : '/' ∉ parts.authority
  endpoint : parts.endpoint <:+ raw

theorem split_formed (s : List Char) : (split s).Formed s := by
  have hdefault : isScheme defaultScheme = true := by decide
  have hlower : defaultScheme.map Char.toLower = defaultScheme := by decide
  have hwhole : Parts.Formed s ⟨defaultScheme, [], s⟩ :=
    ⟨hdefault, hlower, List.not_mem_nil, List.suffix_rfl⟩
  cases hmark : splitSchemeMark s with
  | none =>
      unfold split
      rw [hmark]
      exact hwhole
  | some parts =>
      obtain ⟨scheme, rest⟩ := parts
      by_cases hscheme : isScheme scheme = true
      · obtain ⟨hslash, hsuffix⟩ := splitAuthority_parts rest
        rw [split_of_scheme hmark hscheme]
        refine ⟨(isScheme_lower scheme).trans hscheme, lower_lower scheme, hslash, ?_⟩
        rw [eq_of_splitSchemeMark hmark]
        exact hsuffix.trans ⟨scheme ++ [':', '/', '/'], by simp⟩
      · unfold split
        rw [hmark]
        dsimp only
        rw [if_neg hscheme]
        exact hwhole

/-! ## The parts of a parsed target -/

theorem parse_eq_ok_iff :
    parse raw ports = .ok t ↔
      t.scheme.toList = (split raw.toList).scheme ∧
        t.endpoint.toList = (split raw.toList).endpoint ∧
        parseAuthority (split raw.toList).authority ports.nameserver = .ok t.authority ∧
        HostPort.parse t.endpoint ports.endpoint = .ok ⟨t.host, t.port⟩ := by
  obtain ⟨scheme, authority, endpoint, host, port⟩ := t
  unfold parse
  generalize split raw.toList = parts
  dsimp only [bind, Except.bind]
  constructor
  · intro h
    cases hauthority : parseAuthority parts.authority ports.nameserver with
    | error e =>
        rw [hauthority] at h
        cases h
    | ok a =>
        cases hendpoint : HostPort.parse (String.ofList parts.endpoint) ports.endpoint with
        | error e =>
            rw [hauthority, hendpoint] at h
            cases h
        | ok hp =>
            rw [hauthority, hendpoint] at h
            obtain ⟨rfl, rfl, rfl, rfl, rfl⟩ := Target.mk.inj (Except.ok.inj h)
            exact ⟨String.toList_ofList, String.toList_ofList, rfl, hendpoint⟩
  · rintro ⟨hscheme, hendpoint, hauthority, hhostPort⟩
    rw [hauthority, ← hendpoint, ← hscheme, String.ofList_toList, String.ofList_toList]
    dsimp only
    rw [hhostPort]
    rfl

/-- An authority that is there is a host joined with its port. -/
theorem parseAuthority_eq_ok_iff {authority : List Char} {d : String} {a : Option String} :
    parseAuthority authority d = .ok a ↔
      authority = [] ∧ a = none ∨ authority ≠ [] ∧
        ∃ hp, HostPort.parse (String.ofList authority) d = .ok hp ∧
          a = some (HostPort.join hp.host hp.port) := by
  unfold parseAuthority
  cases authority with
  | nil =>
      constructor
      · intro h
        exact .inl ⟨rfl, (Except.ok.inj h).symm⟩
      · rintro (⟨-, rfl⟩ | ⟨hnil, -⟩)
        · rfl
        · exact absurd rfl hnil
  | cons c authority =>
      rw [if_neg (by simp)]
      dsimp only [bind, Except.bind]
      cases HostPort.parse (String.ofList (c :: authority)) d with
      | error e =>
          constructor
          · nofun
          · rintro (⟨hnil, -⟩ | ⟨-, hp, h, -⟩)
            · cases hnil
            · cases h
      | ok hp =>
          constructor
          · intro h
            exact .inr ⟨by simp, hp, rfl, (Except.ok.inj h).symm⟩
          · rintro (⟨hnil, -⟩ | ⟨-, hp', h, rfl⟩)
            · cases hnil
            · obtain rfl := Except.ok.inj h
              rfl

/-- A parsed authority has been read from its text. -/
theorem reads_authority {authority : List Char} {d : String} {hp : HostPort} (hd : IsPort d.toList)
    (h : HostPort.parse (String.ofList authority) d = .ok hp) :
    Reads d.toList authority hp.host.toList hp.port.toList := by
  have hreads := (parse_ok_iff_reads hd).mp h
  rwa [String.toList_ofList] at hreads

/-! ## Empty hosts -/

theorem joinChars_head (host port : List Char) :
    (joinChars host port).head? = some ':' ↔ host = [] := by
  unfold joinChars
  split
  · rename_i hcolon
    constructor
    · nofun
    · rintro rfl
      cases hcolon
  · rename_i hcolon
    cases host with
    | nil => simp
    | cons c host =>
        constructor
        · intro h
          obtain rfl := Option.some.inj h
          exact absurd List.mem_cons_self hcolon
        · nofun

/-- **A host is empty only in `[]`.** This goes for a text that is parsed alone, for the endpoint of
a target, and for its authority, which then begins with the colon before its port. -/
theorem host_eq_empty_iff (ports : DefaultPorts) (hendpoint : IsPort ports.endpoint.toList)
    (hnameserver : IsPort ports.nameserver.toList) :
    (∀ text hp, HostPort.parse text ports.endpoint = .ok hp → (hp.host = "" ↔ text = "[]")) ∧
      ∀ raw t, parse raw ports = .ok t → (t.host = "" ↔ t.endpoint = "[]") ∧
        ∀ a, t.authority = some a →
          (a.toList.head? = some ':' ↔ (split raw.toList).authority = "[]".toList) := by
  have htext : ∀ text hp, HostPort.parse text ports.endpoint = .ok hp →
      (hp.host = "" ↔ text = "[]") := fun text hp h => by
    have hreads := (parse_ok_iff_reads hendpoint).mp h
    rw [← String.toList_eq_nil_iff, hreads.host_eq_nil_iff, ← String.toList_inj]
    rfl
  refine ⟨htext, fun raw t h => ?_⟩
  obtain ⟨-, -, hauthority, hhostPort⟩ := parse_eq_ok_iff.mp h
  refine ⟨htext t.endpoint _ hhostPort, fun a ha => ?_⟩
  rw [ha] at hauthority
  rcases parseAuthority_eq_ok_iff.mp hauthority with ⟨-, hnone⟩ | ⟨-, hp, hparse, hjoin⟩
  · cases hnone
  · have hreads := reads_authority hnameserver hparse
    rw [Option.some.inj hjoin, HostPort.join, String.toList_ofList, joinChars_head,
      hreads.host_eq_nil_iff]
    rfl

/-- For instance, the local host is taken for `[]:80`. -/
theorem host_eq_empty_iff_local :
    IsPort "443".toList ∧ IsPort "53".toList ∧
      HostPort.parse "[]:80" "443" = .ok ⟨"localhost", "80"⟩ ∧
        ("localhost" = "" ↔ "[]:80" = "[]") := by
  have hendpoint : IsPort "443".toList := ⟨⟨by decide, by decide, by decide⟩, by decide⟩
  have hnameserver : IsPort "53".toList := ⟨⟨by decide, by decide, by decide⟩, by decide⟩
  have hparse : HostPort.parse "[]:80" "443" = .ok ⟨"localhost", "80"⟩ := by decide
  exact ⟨hendpoint, hnameserver, hparse,
    (host_eq_empty_iff ⟨"443", "53"⟩ hendpoint hnameserver).1 _ _ hparse⟩

/-- A bracketed host that is left out is accepted and stays empty. -/
theorem empty_host_parsed :
    HostPort.parse "[]" "443" = .ok ⟨"", "443"⟩ ∧
      parse "dns://[]/[]" ⟨"443", "53"⟩ = .ok ⟨"dns", some ":53", "[]", "", "443"⟩ := by
  decide

/-! ## Round trip -/

/-- A target with nothing left out. -/
def canonical (t : Target) : String :=
  t.scheme ++ "://" ++ t.authority.getD "" ++ "/" ++ t.endpoint

theorem toList_canonical (t : Target) :
    t.canonical.toList = t.scheme.toList ++ ':' :: '/' :: '/' ::
      ((t.authority.getD "").toList ++ '/' :: t.endpoint.toList) := by
  unfold canonical
  simp [String.toList_append]

theorem split_append (hscheme : isScheme scheme = true) (rest : List Char) :
    split (scheme ++ ':' :: '/' :: '/' :: rest) =
      ⟨scheme.map Char.toLower, (splitAuthority rest).1, (splitAuthority rest).2⟩ :=
  split_of_scheme (splitSchemeMark_append (colon_not_mem_of_isScheme hscheme) rest) hscheme

/-- A parsed authority is parsed to itself, and has no slash, if its host is not empty. -/
theorem parseAuthority_join {authority : List Char} {d a : String} (hd : IsPort d.toList)
    (hslash : '/' ∉ d.toList) (hauthority : '/' ∉ authority)
    (hparse : parseAuthority authority d = .ok (some a))
    (hhost : ∀ hp, HostPort.parse (String.ofList authority) d = .ok hp → hp.host ≠ "") :
    parseAuthority a.toList d = .ok (some a) ∧ '/' ∉ a.toList := by
  rcases parseAuthority_eq_ok_iff.mp hparse with ⟨-, hnone⟩ | ⟨-, hp, hauth, hjoin⟩
  · cases hnone
  · obtain rfl := Option.some.inj hjoin
    have hreads := reads_authority hd hauth
    have hsome : hp.host.toList ≠ [] := by
      rw [Ne, String.toList_eq_nil_iff]
      exact hhost hp hauth
    constructor
    · refine parseAuthority_eq_ok_iff.mpr (.inr ⟨?_, hp, ?_, rfl⟩)
      · rw [HostPort.join, String.toList_ofList]
        unfold joinChars
        split <;> simp
      · rw [String.ofList_toList, parse_ok_iff_reads hd, HostPort.join, String.toList_ofList]
        exact reads_join hreads.host_unbracketed (hreads.port_isPort hd) hsome
    · rw [HostPort.join, String.toList_ofList]
      have hmem : '/' ∉ hp.host.toList ++ hp.port.toList := fun h => by
        rcases hreads.mem h with h | h | h
        · exact hauthority h
        · exact hslash h
        · exact absurd h (by decide)
      rw [List.mem_append, not_or] at hmem
      unfold joinChars
      split <;> simp [hmem.1, hmem.2]

/-- **A parsed target is parsed again from its parts.** They are put together with nothing left out.
The endpoint is the end of the text, as it stands, and the letters of the scheme may change their
case. -/
theorem canonical_roundtrip (raw : String) (ports : DefaultPorts) (t : Target)
    (hport : IsPort ports.nameserver.toList) (hslash : '/' ∉ ports.nameserver.toList)
    (hparse : parse raw ports = .ok t)
    (hauthority : ∀ hp,
      HostPort.parse (String.ofList (split raw.toList).authority) ports.nameserver = .ok hp →
        hp.host ≠ "") :
    parse t.canonical ports = .ok t ∧ t.endpoint.toList <:+ raw.toList ∧
      ∀ scheme rest recased, raw.toList = scheme ++ "://".toList ++ rest → isScheme scheme = true →
        recased.map Char.toLower = scheme.map Char.toLower →
          parse (String.ofList (recased ++ "://".toList ++ rest)) ports = .ok t := by
  obtain ⟨hscheme, hendpoint, hauth, hhostPort⟩ := parse_eq_ok_iff.mp hparse
  have hformed := split_formed raw.toList
  refine ⟨?_, hendpoint ▸ hformed.endpoint, fun scheme rest recased hraw hisScheme hcase => ?_⟩
  · have hagain : parseAuthority (t.authority.getD "").toList ports.nameserver = .ok t.authority ∧
        '/' ∉ (t.authority.getD "").toList := by
      cases hsome : t.authority with
      | none => exact ⟨rfl, List.not_mem_nil⟩
      | some a =>
          rw [hsome] at hauth
          exact parseAuthority_join hport hslash hformed.authority hauth hauthority
    have hsplit : split t.canonical.toList =
        ⟨t.scheme.toList, (t.authority.getD "").toList, t.endpoint.toList⟩ := by
      rw [toList_canonical, split_append (hscheme ▸ hformed.scheme),
        splitAuthority_append hagain.2, hscheme, hformed.lower]
    refine parse_eq_ok_iff.mpr ?_
    rw [hsplit]
    exact ⟨rfl, rfl, hagain.1, hhostPort⟩
  · have hmark : "://".toList = [':', '/', '/'] := rfl
    have hrecased : isScheme recased = true := by
      rw [← isScheme_lower, hcase, isScheme_lower, hisScheme]
    have hsame : split (recased ++ "://".toList ++ rest) = split raw.toList := by
      rw [hraw, hmark, List.append_assoc, List.append_assoc]
      exact (split_append hrecased rest).trans (hcase ▸ (split_append hisScheme rest).symm)
    refine parse_eq_ok_iff.mpr ?_
    rw [String.toList_ofList, hsame]
    exact ⟨hscheme, hendpoint, hauth, hhostPort⟩

/-- For instance, an authority is put into brackets and gets its port. -/
theorem canonical_roundtrip_bracketed :
    let t : Target := ⟨"dns", some "[::1]:53", "a.b/c:80", "a.b/c", "80"⟩
    IsPort "53".toList ∧ '/' ∉ "53".toList ∧
      parse "DNS://::1/a.b/c:80" ⟨"443", "53"⟩ = .ok t ∧ t.canonical = "dns://[::1]:53/a.b/c:80" ∧
        parse t.canonical ⟨"443", "53"⟩ = .ok t := by
  have hport : IsPort "53".toList := ⟨⟨by decide, by decide, by decide⟩, by decide⟩
  have hslash : '/' ∉ "53".toList := by decide
  have hparse : parse "DNS://::1/a.b/c:80" ⟨"443", "53"⟩ =
      .ok ⟨"dns", some "[::1]:53", "a.b/c:80", "a.b/c", "80"⟩ := by decide
  have hauthority : ∀ hp, HostPort.parse (String.ofList (split "DNS://::1/a.b/c:80".toList).authority)
      "53" = .ok hp → hp.host ≠ "" := fun hp h => by
    have hread : HostPort.parse (String.ofList (split "DNS://::1/a.b/c:80".toList).authority) "53" =
        .ok ⟨"::1", "53"⟩ := by decide
    rw [hread] at h
    obtain rfl := Except.ok.inj h
    decide
  exact ⟨hport, hslash, hparse, by decide,
    (canonical_roundtrip _ ⟨"443", "53"⟩ _ hport hslash hparse hauthority).1⟩

end Dialer.Target
