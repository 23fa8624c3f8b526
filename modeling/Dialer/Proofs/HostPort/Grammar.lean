import Dialer.Proofs.HostPort.Splitting
import Dialer.Proofs.Ip.Literals

/-!
# The grammar of a host with a port

`Reads` lists the forms in which a host may be written, with a port or without one, and `Trails`
those that end with a separator. The two cover all that `read` does beside refusing a text:

* `read_eq_ok_iff` — a text is read exactly if it has one of the forms, and as that form says;
* `read_eq_noPort_iff` — and it lacks its port exactly if it trails.

The default port has to be one itself (`IsPort`): a text without a port is read by way of the text
with the default port behind it.
-/

namespace Dialer.HostPort

/-- A port has some characters, and neither colons nor brackets. -/
structure IsPort (s : List Char) : Prop extends Plain s where
  some : s ≠ []

/-- An empty host is the local one. -/
def orLocalhost (host : List Char) : List Char :=
  if host.isEmpty then localhost else host

/-- The forms of a text, with the host and the port that each stands for. -/
inductive Reads (default : List Char) : List Char → List Char → List Char → Prop
  /-- An IP literal. -/
  | literal {s : List Char} (h : (Ip.read? s).isSome) : Reads default s s default
  /-- `h:p` -/
  | plain {host port : List Char} (hhost : Plain host) (hport : IsPort port) :
      Reads default (host ++ ':' :: port) (orLocalhost host) port
  /-- `[h]:p` -/
  | bracketed {host port : List Char} (hhost : Unbracketed host) (hport : IsPort port) :
      Reads default ('[' :: (host ++ ']' :: ':' :: port)) (orLocalhost host) port
  /-- `h` -/
  | bare {host : List Char} (hhost : Plain host) (hsome : host ≠ []) :
      Reads default host host default
  /-- `[h]` -/
  | enclosed {host : List Char} (hhost : Unbracketed host) :
      Reads default ('[' :: (host ++ [']'])) host default

/-- The forms with a separator and nothing behind it. -/
inductive Trails : List Char → Prop
  /-- `h:` -/
  | plain {host : List Char} (hhost : Plain host) : Trails (host ++ [':'])
  /-- `[h]:` -/
  | bracketed {host : List Char} (hhost : Unbracketed host) :
      Trails ('[' :: (host ++ [']', ':']))

variable {s d host port : List Char}

/-! ## Literals have no other form -/

theorem unbracketed_of_literal (h : (Ip.read? s).isSome) : Unbracketed s := by
  obtain ⟨value, hread⟩ := Option.isSome_iff_exists.mp h
  obtain ⟨hopening, hclosing⟩ := Ip.bracket_not_mem_of_read? hread
  exact ⟨hopening, hclosing⟩

theorem not_literal_of_opening (hopening : '[' ∈ s) : (Ip.read? s).isSome = false := by
  rw [Bool.eq_false_iff]
  exact fun hliteral => (unbracketed_of_literal hliteral).opening hopening

theorem not_literal_of_plain (hhost : Plain host) (hport : Plain port) :
    (Ip.read? (host ++ ':' :: port)).isSome = false := by
  cases hread : Ip.read? (host ++ ':' :: port) with
  | none => rfl
  | some ip =>
      refine absurd ?_ (Ip.count_colon_ne_one hread)
      rw [List.count_append, List.count_cons_self, List.count_eq_zero.mpr hhost.colon,
        List.count_eq_zero.mpr hport.colon]

theorem Trails.not_literal {s : List Char} (h : Trails s) : Ip.read? s = none := by
  have hnil : Plain [] := by constructor <;> simp
  rw [← Option.isNone_iff_eq_none, ← Option.not_isSome, Bool.not_eq_true']
  cases h with
  | plain hhost => exact not_literal_of_plain hhost hnil
  | bracketed hhost => exact not_literal_of_opening List.mem_cons_self

theorem ne_nil_of_literal (h : (Ip.read? s).isSome) : s ≠ [] := by
  rintro rfl
  cases h

/-- A text that is split is no literal. -/
theorem not_literal_of_split {parts : List Char × List Char} (h : split s = .ok parts) :
    (Ip.read? s).isSome = false := by
  obtain ⟨host, port, -, hport, ⟨rfl, hhost⟩ | ⟨rfl, -⟩⟩ := split_eq_ok_iff.mp h
  · exact not_literal_of_plain hhost hport
  · exact not_literal_of_opening List.mem_cons_self

/-! ## The two attempts -/

/-- With the default port behind it, a text is split if it is a host, plain or enclosed. -/
theorem split_default_iff (hd : Plain d) {parts : List Char × List Char} :
    split (s ++ ':' :: d) = .ok parts ↔ ∃ host, (host, d) = parts ∧
      (s = host ∧ Plain host ∨ s = '[' :: (host ++ [']']) ∧ Unbracketed host) := by
  rw [split_eq_ok_iff]
  constructor
  · rintro ⟨host, port, hparts, hport, ⟨hs, hhost⟩ | ⟨hs, hhost⟩⟩
    · obtain ⟨rfl, rfl⟩ := split_last_unique hd.colon hport.colon hs
      exact ⟨s, hparts, .inl ⟨rfl, hhost⟩⟩
    · have hlast : s ++ ':' :: d = ('[' :: (host ++ [']'])) ++ ':' :: port := by
        rw [hs]
        simp
      obtain ⟨rfl, rfl⟩ := split_last_unique hd.colon hport.colon hlast
      exact ⟨host, hparts, .inr ⟨rfl, hhost⟩⟩
  · rintro ⟨host, hparts, ⟨rfl, hhost⟩ | ⟨rfl, hhost⟩⟩
    · exact ⟨s, d, hparts, hd, .inl ⟨rfl, hhost⟩⟩
    · exact ⟨host, d, hparts, hd, .inr ⟨by simp, hhost⟩⟩

/-- A host without a port is not split. -/
theorem split_of_host (hhost : Plain s ∨ ∃ host, s = '[' :: (host ++ [']']) ∧ Unbracketed host) :
    ∃ fault, split s = .error fault := by
  cases hsplit : split s with
  | error fault => exact ⟨fault, rfl⟩
  | ok parts =>
      exfalso
      obtain ⟨front, port, -, hport, hs⟩ := split_eq_ok_iff.mp hsplit
      rcases hhost with hplain | ⟨host, rfl, -⟩
      · refine hplain.colon ?_
        rcases hs with ⟨rfl, -⟩ | ⟨rfl, -⟩ <;> simp
      · rcases hs with ⟨hs, hfront⟩ | ⟨hs, -⟩
        · have hhead := head?_ne_opening hfront.opening port
          rw [← hs] at hhead
          exact hhead rfl
        · -- the last character is a bracket, and that of a split text is a colon or in its port
          have hlast := congrArg List.getLast? (List.cons.inj hs).2
          have hlast' : (front ++ ']' :: ':' :: port).getLast? = (':' :: port).getLast? := by
            rw [List.getLast?_append_of_ne_nil _ (by simp)]
            simp
          rw [List.getLast?_concat, hlast'] at hlast
          have hmem := List.mem_of_getLast? hlast.symm
          rcases List.mem_cons.mp hmem with hcolon | hclosing
          · cases hcolon
          · exact hport.closing hclosing

theorem read_of_literal (h : (Ip.read? s).isSome) : read s d = .ok (s, d) := by
  have hsome : s.isEmpty = false := by simpa using ne_nil_of_literal h
  unfold read
  rw [hsome, if_neg Bool.false_ne_true, if_pos h]

theorem read_of_split (h : split s = .ok (host, port)) :
    read s d = if port.isEmpty then .error .noPort else .ok (orLocalhost host, port) := by
  have hsome : s.isEmpty = false := by
    cases s with
    | nil => cases h
    | cons c s => rfl
  unfold read
  rw [hsome, if_neg Bool.false_ne_true, if_neg (by simp [not_literal_of_split h]), h]
  rfl

theorem read_of_unsplit (hsome : s ≠ []) (hliteral : (Ip.read? s).isSome = false)
    {fault : SplitFault} (h : split s = .error fault) :
    read s d = match split (s ++ ':' :: d) with
      | .ok parts => .ok parts
      | .error fault => .error (.unsplittable fault) := by
  have hempty : s.isEmpty = false := by simpa using hsome
  unfold read
  rw [hempty, if_neg Bool.false_ne_true, if_neg (by simp [hliteral])]
  cases split (s ++ ':' :: d) with
  | ok parts => simp only [h]
  | error fault => simp only [h]

/-! ## What is read -/

/-- **A text is read exactly if it has one of the forms.** -/
theorem read_eq_ok_iff (hd : IsPort d) : read s d = .ok (host, port) ↔ Reads d s host port := by
  constructor
  · intro h
    by_cases hliteral : (Ip.read? s).isSome
    · rw [read_of_literal hliteral] at h
      obtain ⟨rfl, rfl⟩ := Prod.mk.inj (Except.ok.inj h)
      exact .literal hliteral
    · have hnone : (Ip.read? s).isSome = false := by simpa using hliteral
      cases hsplit : split s with
      | ok parts =>
          obtain ⟨front, back⟩ := parts
          rw [read_of_split hsplit] at h
          split at h
          · cases h
          · rename_i hback
            obtain ⟨rfl, rfl⟩ := Prod.mk.inj (Except.ok.inj h)
            obtain ⟨_, back, hparts, hport, hs⟩ := split_eq_ok_iff.mp hsplit
            obtain ⟨rfl, rfl⟩ := Prod.mk.inj hparts
            have hisPort : IsPort back := ⟨hport, by simpa using hback⟩
            rcases hs with ⟨rfl, hfront⟩ | ⟨rfl, hfront⟩
            · exact .plain hfront hisPort
            · exact .bracketed hfront hisPort
      | error fault =>
          have hsome : s ≠ [] := by
            rintro rfl
            cases h
          rw [read_of_unsplit hsome hnone hsplit] at h
          cases hagain : split (s ++ ':' :: d) with
          | error fault =>
              rw [hagain] at h
              cases h
          | ok parts =>
              rw [hagain] at h
              obtain rfl := Except.ok.inj h
              obtain ⟨_, hparts, hs⟩ := (split_default_iff hd.toPlain).mp hagain
              obtain ⟨rfl, rfl⟩ := Prod.mk.inj hparts
              rcases hs with ⟨rfl, hhost⟩ | ⟨rfl, hhost⟩
              · exact .bare hhost hsome
              · exact .enclosed hhost
  · intro h
    cases h with
    | literal h => exact read_of_literal h
    | plain hhost hport =>
        rw [read_of_split (split_eq_ok_iff.mpr ⟨_, _, rfl, hport.toPlain, .inl ⟨rfl, hhost⟩⟩),
          if_neg (by simpa using hport.some)]
    | bracketed hhost hport =>
        rw [read_of_split (split_eq_ok_iff.mpr ⟨_, _, rfl, hport.toPlain, .inr ⟨rfl, hhost⟩⟩),
          if_neg (by simpa using hport.some)]
    | bare hhost hsome =>
        by_cases hliteral : (Ip.read? s).isSome
        · exact read_of_literal hliteral
        · obtain ⟨fault, hsplit⟩ := split_of_host (.inl hhost)
          rw [read_of_unsplit hsome (by simpa using hliteral) hsplit,
            (split_default_iff hd.toPlain).mpr ⟨s, rfl, .inl ⟨rfl, hhost⟩⟩]
    | enclosed hhost =>
        obtain ⟨fault, hsplit⟩ := split_of_host (.inr ⟨_, rfl, hhost⟩)
        rw [read_of_unsplit (by simp) (not_literal_of_opening List.mem_cons_self) hsplit,
          (split_default_iff hd.toPlain).mpr ⟨_, rfl, .inr ⟨rfl, hhost⟩⟩]

/-! ## What is refused -/

/-- A text is refused as there is none, as it trails, or as it is not split with the default port
either. -/
theorem read_refused {refusal : Refusal} (h : read s d = .error refusal) :
    refusal = .empty ∧ s = [] ∨ refusal = .noPort ∧ Trails s ∨
      ∃ fault, refusal = .unsplittable fault := by
  by_cases hsome : s = []
  · subst hsome
    exact .inl ⟨(Except.error.inj h).symm, rfl⟩
  · by_cases hliteral : (Ip.read? s).isSome
    · rw [read_of_literal hliteral] at h
      cases h
    · cases hsplit : split s with
      | ok parts =>
          obtain ⟨host, port, rfl, hport, hs⟩ := split_eq_ok_iff.mp hsplit
          rw [read_of_split hsplit] at h
          split at h
          · rename_i hempty
            obtain rfl : port = [] := by simpa using hempty
            refine .inr (.inl ⟨(Except.error.inj h).symm, ?_⟩)
            rcases hs with ⟨rfl, hhost⟩ | ⟨rfl, hhost⟩
            · exact .plain hhost
            · exact .bracketed hhost
          · cases h
      | error fault =>
          rw [read_of_unsplit hsome (by simpa using hliteral) hsplit] at h
          split at h
          · cases h
          · rename_i fault _
            exact .inr (.inr ⟨fault, (Except.error.inj h).symm⟩)

theorem read_eq_empty_iff : read s d = .error .empty ↔ s = [] := by
  constructor
  · intro h
    obtain ⟨-, hnothing⟩ | ⟨hne, -⟩ | ⟨fault, hne⟩ := read_refused h
    · exact hnothing
    · cases hne
    · cases hne
  · rintro rfl
    rfl

/-- **A text lacks its port exactly if it trails.** -/
theorem read_eq_noPort_iff : read s d = .error .noPort ↔ Trails s := by
  constructor
  · intro h
    obtain ⟨hne, -⟩ | ⟨-, htrails⟩ | ⟨fault, hne⟩ := read_refused h
    · cases hne
    · exact htrails
    · cases hne
  · intro h
    have hnil : Plain [] := by constructor <;> simp
    cases h with
    | plain hhost =>
        rw [read_of_split (split_eq_ok_iff.mpr ⟨_, _, rfl, hnil, .inl ⟨rfl, hhost⟩⟩)]
        rfl
    | bracketed hhost =>
        rw [read_of_split (split_eq_ok_iff.mpr ⟨_, _, rfl, hnil, .inr ⟨rfl, hhost⟩⟩)]
        rfl

/-! ## The parts that are read -/

/-- A host that is left out stands for the local one, except in `[]`, which goes by way of the text
with the default port behind it. -/
theorem Reads.host_eq_nil_iff (h : Reads d s host port) : host = [] ↔ s = ['[', ']'] := by
  have hlocal : ∀ host, orLocalhost host ≠ [] := fun host => by
    unfold orLocalhost
    split
    · decide
    · rename_i hsome
      simpa using hsome
  cases h with
  | literal hliteral =>
      refine ⟨fun h => absurd h (ne_nil_of_literal hliteral), ?_⟩
      rintro rfl
      rw [not_literal_of_opening List.mem_cons_self] at hliteral
      cases hliteral
  | plain hhost hport =>
      refine ⟨fun h => absurd h (hlocal _), fun h => ?_⟩
      have hcolon : ':' ∈ ['[', ']'] := h ▸ List.mem_append_right _ List.mem_cons_self
      exact absurd hcolon (by decide)
  | bracketed hhost hport =>
      refine ⟨fun h => absurd h (hlocal _), fun h => ?_⟩
      have hcolon : ':' ∈ ['[', ']'] := h ▸ by simp
      exact absurd hcolon (by decide)
  | bare hhost hsome =>
      refine ⟨fun h => absurd h hsome, ?_⟩
      rintro rfl
      exact absurd List.mem_cons_self hhost.opening
  | enclosed hhost => simp

theorem Reads.host_unbracketed (h : Reads d s host port) : Unbracketed host := by
  have hlocal : ∀ {host}, Unbracketed host → Unbracketed (orLocalhost host) := fun hhost => by
    unfold orLocalhost
    split
    · exact ⟨by decide, by decide⟩
    · exact hhost
  cases h with
  | literal hliteral => exact unbracketed_of_literal hliteral
  | plain hhost hport => exact hlocal hhost.unbracketed
  | bracketed hhost hport => exact hlocal hhost
  | bare hhost hsome => exact hhost.unbracketed
  | enclosed hhost => exact hhost

theorem Reads.port_isPort (hd : IsPort d) (h : Reads d s host port) : IsPort port := by
  cases h with
  | literal hliteral => exact hd
  | plain hhost hport => exact hport
  | bracketed hhost hport => exact hport
  | bare hhost hsome => exact hd
  | enclosed hhost => exact hd

/-- The host and the port have no characters but those of the text, of the default port and of the
local host. -/
theorem Reads.mem (h : Reads d s host port) {c : Char} (hc : c ∈ host ++ port) :
    c ∈ s ∨ c ∈ d ∨ c ∈ localhost := by
  have hlocal : ∀ {host}, c ∈ orLocalhost host → c ∈ host ∨ c ∈ localhost := fun hc => by
    unfold orLocalhost at hc
    split at hc
    · exact .inr hc
    · exact .inl hc
  cases h with
  | literal hliteral =>
      rw [List.mem_append] at hc
      exact hc.imp_right .inl
  | plain hhost hport =>
      rcases List.mem_append.mp hc with hc | hc
      · rcases hlocal hc with hc | hc
        · exact .inl (List.mem_append_left _ hc)
        · exact .inr (.inr hc)
      · exact .inl (by simp [hc])
  | bracketed hhost hport =>
      rcases List.mem_append.mp hc with hc | hc
      · rcases hlocal hc with hc | hc
        · exact .inl (by simp [hc])
        · exact .inr (.inr hc)
      · exact .inl (by simp [hc])
  | bare hhost hsome =>
      rw [List.mem_append] at hc
      exact hc.imp_right .inl
  | enclosed hhost =>
      rcases List.mem_append.mp hc with hc | hc
      · exact .inl (by simp [hc])
      · exact .inr (.inl hc)

/-- What is joined is read again, whatever port applies by default. -/
theorem reads_join (hhost : Unbracketed host) (hport : IsPort port) (hsome : host ≠ []) :
    Reads d (joinChars host port) host port := by
  have hlocal : orLocalhost host = host := if_neg (by simpa using hsome)
  unfold joinChars
  split
  · have h : Reads d _ _ _ := .bracketed hhost hport
    rwa [hlocal] at h
  · rename_i hcolon
    have h : Reads d _ _ _ := .plain ⟨hcolon, hhost.opening, hhost.closing⟩ hport
    rwa [hlocal] at h

end Dialer.HostPort
