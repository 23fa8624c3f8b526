import Dialer.Proofs.HostPort.Grammar
import Dialer.Proofs.HostPort.Offsets

/-!
# What a text is parsed to

`parse_grammar` is the whole of `HostPort.parse` for a default port that is one: the texts that are
accepted, with the host and the port that they stand for, and which error each of the others gives.
-/

namespace Dialer.HostPort

/-- The outcome of parsing, from that of reading. -/
def outcome (target defaultPort : String) :
    Except Refusal (List Char × List Char) → Except ParseError HostPort
  | .ok (host, port) => .ok ⟨String.ofList host, String.ofList port⟩
  | .error .empty => .error .missingTarget
  | .error .noPort => .error .trailingSeparator
  | .error (.unsplittable fault) =>
    .error (.invalidTarget target (target ++ ":" ++ defaultPort) fault)

/-- Parses a host with an optional port at byte offsets. -/
def parseAtOffsets (target defaultPort : String) : Option (Except ParseError HostPort) :=
  (readAtOffsets target.toList defaultPort.toList).map (outcome target defaultPort)

variable {t d : String}

theorem parse_eq (t d : String) : parse t d = outcome t d (read t.toList d.toList) := by
  unfold parse outcome
  cases read t.toList d.toList with
  | ok parts => rfl
  | error refusal => cases refusal <;> rfl

theorem parse_eq_ok_iff {hp : HostPort} :
    parse t d = .ok hp ↔ read t.toList d.toList = .ok (hp.host.toList, hp.port.toList) := by
  rw [parse_eq]
  cases read t.toList d.toList with
  | ok parts =>
      obtain ⟨host, port⟩ := parts
      obtain ⟨host', port'⟩ := hp
      constructor
      · intro h
        obtain ⟨rfl, rfl⟩ := HostPort.mk.inj (Except.ok.inj h)
        rw [String.toList_ofList, String.toList_ofList]
      · intro h
        obtain ⟨rfl, rfl⟩ := Prod.mk.inj (Except.ok.inj h)
        unfold outcome
        dsimp only
        rw [String.ofList_toList, String.ofList_toList]
  | error refusal => cases refusal <;> exact ⟨nofun, nofun⟩

theorem parse_eq_missing_iff :
    parse t d = .error .missingTarget ↔ read t.toList d.toList = .error .empty := by
  rw [parse_eq]
  cases read t.toList d.toList with
  | ok parts => exact ⟨nofun, nofun⟩
  | error refusal => cases refusal <;> simp [outcome]

theorem parse_eq_trailing_iff :
    parse t d = .error .trailingSeparator ↔ read t.toList d.toList = .error .noPort := by
  rw [parse_eq]
  cases read t.toList d.toList with
  | ok parts => exact ⟨nofun, nofun⟩
  | error refusal => cases refusal <;> simp [outcome]

theorem parse_ok_iff_reads (hd : IsPort d.toList) {hp : HostPort} :
    parse t d = .ok hp ↔ Reads d.toList t.toList hp.host.toList hp.port.toList :=
  parse_eq_ok_iff.trans (read_eq_ok_iff hd)

/-- What is left is invalid, and told as given and as tried. -/
theorem parse_invalid_of_not (hok : ∀ hp, parse t d ≠ .ok hp)
    (hmissing : parse t d ≠ .error .missingTarget)
    (htrailing : parse t d ≠ .error .trailingSeparator) :
    ∃ fault, parse t d = .error (.invalidTarget t (t ++ ":" ++ d) fault) := by
  rw [parse_eq] at *
  cases hread : read t.toList d.toList with
  | ok parts =>
      rw [hread] at hok
      exact absurd rfl (hok _)
  | error refusal =>
      rw [hread] at hmissing htrailing
      cases refusal with
      | empty => exact absurd rfl hmissing
      | noPort => exact absurd rfl htrailing
      | unsplittable fault => exact ⟨fault, rfl⟩

/-- **The texts that are parsed are those of the grammar.** Each text has one outcome: it has one of
the forms and is read as that form says, or it is empty, or it ends with a separator, or it is
invalid and the error names it. Parsing at byte offsets has the same outcome, so no index is out of
bounds or inside a character. -/
theorem parse_grammar (t d : String) (hd : IsPort d.toList) :
    (∀ hp, parse t d = .ok hp ↔ Reads d.toList t.toList hp.host.toList hp.port.toList) ∧
      (parse t d = .error .missingTarget ↔ t = "") ∧
      (parse t d = .error .trailingSeparator ↔ Trails t.toList ∧ Ip.read? t.toList = none) ∧
      ((∃ fault, parse t d = .error (.invalidTarget t (t ++ ":" ++ d) fault)) ↔
        (∀ host port, ¬Reads d.toList t.toList host port) ∧ t ≠ "" ∧ ¬Trails t.toList) ∧
      parseAtOffsets t d = some (parse t d) := by
  have hok : ∀ hp, parse t d = .ok hp ↔ Reads d.toList t.toList hp.host.toList hp.port.toList :=
    fun hp => parse_ok_iff_reads hd
  have hmissing : parse t d = .error .missingTarget ↔ t = "" := by
    rw [parse_eq_missing_iff, read_eq_empty_iff, String.toList_eq_nil_iff]
  have htrailing : parse t d = .error .trailingSeparator ↔ Trails t.toList := by
    rw [parse_eq_trailing_iff, read_eq_noPort_iff]
  refine ⟨hok, hmissing, ?_, ?_, ?_⟩
  · rw [htrailing]
    exact ⟨fun h => ⟨h, h.not_literal⟩, And.left⟩
  · constructor
    · rintro ⟨fault, h⟩
      refine ⟨fun host port hreads => ?_, fun hempty => ?_, fun htrails => ?_⟩
      · have hparsed := (hok ⟨String.ofList host, String.ofList port⟩).mpr (by simpa using hreads)
        rw [h] at hparsed
        cases hparsed
      · rw [hmissing.mpr hempty] at h
        cases h
      · rw [htrailing.mpr htrails] at h
        cases h
    · rintro ⟨hreads, hempty, htrails⟩
      exact parse_invalid_of_not (fun hp h => hreads _ _ ((hok hp).mp h)) (mt hmissing.mp hempty)
        (mt htrailing.mp htrails)
  · unfold parseAtOffsets
    rw [readAtOffsets_eq, parse_eq]
    rfl

/-- For instance, a bracketed host keeps its colons. -/
theorem parse_grammar_bracketed :
    IsPort "443".toList ∧ parse "[fe80::1]:80" "443" = .ok ⟨"fe80::1", "80"⟩ := by
  have hport : IsPort "443".toList := ⟨⟨by decide, by decide, by decide⟩, by decide⟩
  have hhost : Unbracketed "fe80::1".toList := ⟨by decide, by decide⟩
  exact ⟨hport, ((parse_grammar "[fe80::1]:80" "443" hport).1 _).mpr
    (.bracketed hhost ⟨⟨by decide, by decide, by decide⟩, by decide⟩)⟩

end Dialer.HostPort
