import Dialer.HostPort
import Dialer.Proofs.Ip.Literals

/-!
# Which ports make a socket address

A reader of numeric addresses looks at no character but those it takes and the next one. So it reads
the same in a longer text, if what comes behind begins with a character that it does not take
(`Bars`). An IP literal joined with a port is therefore read as this literal, and the whole is a
socket address exactly if the port is a numeral below `2 ^ 16` (`isSocketAddress_joinChars`): digits
and nothing else, with any number of leading zeros. A port as it is configured may have a plus sign
in front as well (`unsignedBelow?_isSome_iff`).
-/

namespace Dialer

/-! ## Numerals -/

namespace Text

/-- Decimal digits, and one at least, with a value below a bound. -/
structure Numeral (bound : Nat) (s : List Char) : Prop where
  some : s ≠ []
  digits : ∀ c ∈ s, isDigitOf 10 c = true
  below : ofDigits 10 s < bound

variable {base bound : Nat} {s : List Char}

theorem spanDigits_of_all (h : ∀ c ∈ s, isDigitOf base c = true) : spanDigits base s = (s, []) := by
  unfold spanDigits
  rw [List.takeWhile_eq_self_iff.mpr h, List.dropWhile_eq_nil_iff.mpr h]

theorem plus_not_numeral (rest : List Char) : ¬ Numeral bound ('+' :: rest) := fun h =>
  absurd (h.digits '+' List.mem_cons_self) (by decide)

/-- A number is written as a numeral, or as one behind a plus sign. -/
theorem unsignedBelow?_isSome_iff :
    (unsignedBelow? bound s).isSome = true ↔
      Numeral bound s ∨ ∃ rest, s = '+' :: rest ∧ Numeral bound rest := by
  have hplain (digits : List Char) :
      ((if digits.isEmpty || digits.any (fun c => !isDigitOf 10 c) then none
        else some (ofDigits 10 digits)).filter (· < bound)).isSome = true ↔
          Numeral bound digits := by
    by_cases hfault : (digits.isEmpty || digits.any fun c => !isDigitOf 10 c) = true
    · rw [if_pos hfault]
      refine ⟨nofun, fun h => ?_⟩
      rcases (Bool.or_eq_true _ _).mp hfault with hnone | hany
      · exact absurd (List.isEmpty_iff.mp hnone) h.some
      · obtain ⟨c, hc, hnot⟩ := List.any_eq_true.mp hany
        rw [h.digits c hc] at hnot
        cases hnot
    · rw [if_neg hfault]
      simp only [Bool.or_eq_true, List.isEmpty_iff, List.any_eq_true, not_or, not_exists, not_and,
        Bool.not_eq_true', Bool.not_eq_false] at hfault
      simp only [Option.isSome_filter, Option.any_some, decide_eq_true_eq]
      exact ⟨fun hbelow => ⟨hfault.1, hfault.2, hbelow⟩, Numeral.below⟩
  unfold unsignedBelow? unsigned?
  dsimp only
  rw [hplain]
  split
  · rename_i rest
    refine ⟨fun h => .inr ⟨rest, rfl, h⟩, ?_⟩
    rintro (h | ⟨_, hs, h⟩)
    · exact absurd h (plus_not_numeral rest)
    · obtain rfl := (List.cons.inj hs).2
      exact h
  · rename_i hplus
    refine ⟨.inl, ?_⟩
    rintro (h | ⟨rest, rfl, -⟩)
    · exact h
    · exact absurd rfl (hplus rest)

end Text

namespace Ip

open Dialer.Text

/-! ## What comes behind -/

/-- A text that is empty, or begins with a character that is not taken. -/
def Bars (allowed : Char → Prop) (t : List Char) : Prop :=
  ∀ c ∈ t.head?, ¬ allowed c

theorem bars_cons {allowed : Char → Prop} {c : Char} (h : ¬ allowed c) (t : List Char) :
    Bars allowed (c :: t) := by
  rintro _ ⟨⟩
  exact h

theorem Bars.mono {allowed other : Char → Prop} {t : List Char} (h : Bars other t)
    (himp : ∀ c, allowed c → other c) : Bars allowed t :=
  fun c hc hallowed => h c hc (himp c hallowed)

theorem Bars.head_ne {allowed : Char → Prop} {c : Char} {t : List Char} (h : Bars allowed t)
    (hc : allowed c) : t.head? ≠ some c := fun hhead => h c hhead hc

variable {s t : List Char} {value : Ip}

theorem spanDigits_append {base : Nat} (h : Bars (isDigitOf base · = true) t) (s : List Char) :
    spanDigits base (s ++ t) = ((spanDigits base s).1, (spanDigits base s).2 ++ t) := by
  unfold spanDigits
  induction s with
  | nil =>
      cases t with
      | nil => rfl
      | cons c t => simp [h c rfl]
  | cons x s ih =>
      obtain ⟨htake, hdrop⟩ := Prod.mk.inj ih
      cases hx : isDigitOf base x
      · simp [hx]
      · simp [hx, htake, hdrop]

theorem readChar_append {c : Char} (h : t.head? ≠ some c) (s : List Char) :
    readChar c (s ++ t) = (readChar c s).map (· ++ t) := by
  cases s with
  | cons x s =>
      rw [List.cons_append, readChar, readChar, apply_ite (Option.map _)]
      rfl
  | nil =>
      cases t with
      | nil => rfl
      | cons x t => exact if_neg fun hx => h (congrArg some hx)

theorem readOctet_append (h : Bars IsDotted t) (s : List Char) :
    readOctet (s ++ t) = (readOctet s).map (Prod.map id (· ++ t)) := by
  unfold readOctet
  rw [spanDigits_append (h.mono fun _ => .inl)]
  simp only [apply_ite (Option.map _), Option.map_none, Option.map_some, Prod.map, id]

theorem readGroup_append (h : Bars IsNumeric t) (s : List Char) :
    readGroup (s ++ t) = (readGroup s).map (Prod.map id (· ++ t)) := by
  unfold readGroup
  rw [spanDigits_append (h.mono fun _ => .inl)]
  simp only [apply_ite (Option.map _), Option.map_none, Option.map_some, Prod.map, id]

theorem readOctets_append (h : Bars IsDotted t) (s : List Char) :
    readOctets (s ++ t) = (readOctets s).map (Prod.map id (· ++ t)) := by
  have hpoint := h.head_ne (c := '.') (.inr rfl)
  simp only [readOctets, Option.bind_eq_bind, readOctet_append h, readChar_append hpoint,
    Option.bind_map, Option.map_bind, Function.comp_def, Prod.map, id]
  rfl

theorem readGroups_append (h : Bars IsNumeric t) (first : Bool) (room : Nat) (s : List Char) :
    readGroups first room (s ++ t) =
      ⟨(readGroups first room s).groups, (readGroups first room s).dotted,
        (readGroups first room s).rest ++ t⟩ := by
  induction room generalizing first s with
  | zero => rfl
  | succ room ih =>
      have hitem : (if first then some (s ++ t) else readChar ':' (s ++ t)) =
          (if first then some s else readChar ':' s).map (· ++ t) := by
        rw [readChar_append (h.head_ne (.inr (.inr rfl))), apply_ite (Option.map _)]
        rfl
      unfold readGroups
      rw [hitem]
      cases (if first then some s else readChar ':' s) with
      | none => rfl
      | some body =>
          have hdotted : (if room > 0 then readOctets (body ++ t) else none) =
              (if room > 0 then readOctets body else none).map (Prod.map id (· ++ t)) := by
            rw [readOctets_append (h.mono fun _ => IsDotted.numeric), apply_ite (Option.map _)]
            rfl
          simp only [Option.map_some]
          rw [hdotted]
          cases (if room > 0 then readOctets body else none) with
          | some read => rfl
          | none =>
              simp only [Option.map_none]
              rw [readGroup_append h]
              cases readGroup body with
              | none => rfl
              | some read => simp only [Option.map_some, Prod.map, id, ih]

theorem readV6_append (h : Bars IsNumeric t) (s : List Char) :
    readV6 (s ++ t) = (readV6 s).map (Prod.map id (· ++ t)) := by
  have hcolon := h.head_ne (c := ':') (.inr (.inr rfl))
  unfold readV6
  rw [readGroups_append h]
  simp only [readChar_append hcolon, readGroups_append h, Option.bind_eq_bind, Option.bind_map,
    Function.comp_def, apply_ite (Option.map _), Option.map_bind, Option.map_none]
  rfl

/-! ## Socket addresses -/

theorem readBelow_eq_some_nil_iff {bound port : Nat} :
    readBelow bound s = some (port, []) ↔ Numeral bound s ∧ port = ofDigits 10 s := by
  unfold readBelow
  dsimp only
  constructor
  · intro h
    split at h
    · cases h
    · rename_i hfine
      obtain ⟨hport, hrest⟩ := Prod.mk.inj (Option.some.inj h)
      have hdigits := List.dropWhile_eq_nil_iff.mp hrest
      rw [spanDigits_of_all hdigits] at hfine hport
      rw [not_or, List.isEmpty_iff, ge_iff_le, Nat.not_le] at hfine
      exact ⟨⟨hfine.1, hdigits, hfine.2⟩, hport.symm⟩
  · rintro ⟨h, rfl⟩
    rw [spanDigits_of_all h.digits, if_neg]
    rw [not_or, List.isEmpty_iff, ge_iff_le, Nat.not_le]
    exact ⟨h.some, h.below⟩

theorem isSocketAddress_iff :
    isSocketAddress s = true ↔ ∃ ip port, readSocket s = some (ip, port, []) := by
  unfold isSocketAddress
  split
  · rename_i ip port hread
    exact ⟨fun _ => ⟨ip, port, hread⟩, fun _ => rfl⟩
  · rename_i hother
    exact ⟨nofun, fun ⟨ip, port, hread⟩ => absurd hread (hother ip port)⟩

theorem readOctets_opening (s : List Char) : readOctets ('[' :: s) = none := by
  have hoctet : readOctet ('[' :: s) = none := rfl
  unfold readOctets
  rw [hoctet]
  rfl

theorem readSocket_of_octets {octets : List Nat} (h : readOctets s = some (octets, []))
    (port : List Char) :
    readSocket (s ++ ':' :: port) =
      (readBelow UInt16.size port).map fun read => (ofOctets octets, read) := by
  have hbars : Bars IsDotted (':' :: port) := bars_cons (by simp [IsDotted, isDigitOf, digitValue]) _
  unfold readSocket
  rw [readOctets_append hbars, h]
  show ((readBelow UInt16.size port).bind fun read => some (ofOctets octets, read)) = _
  cases readBelow UInt16.size port <;> rfl

theorem readSocket_of_groups (h : readV6 s = some (value, [])) (port : List Char) :
    readSocket ('[' :: (s ++ ']' :: ':' :: port)) =
      (readBelow UInt16.size port).map fun read => (value, read) := by
  have hbars : Bars IsNumeric (']' :: ':' :: port) :=
    bars_cons (by simp [IsNumeric, isDigitOf, digitValue]) _
  unfold readSocket
  rw [readOctets_opening]
  show (readV6 (s ++ ']' :: ':' :: port)).bind _ = _
  rw [readV6_append hbars, h]
  show ((readBelow UInt16.size port).bind fun read => some (value, read)) = _
  cases readBelow UInt16.size port <;> rfl

/-- **An IP literal and a port are a socket address exactly if the port is a numeral.** -/
theorem isSocketAddress_joinChars (h : read? s = some value) (port : List Char) :
    isSocketAddress (HostPort.joinChars s port) = true ↔ Numeral UInt16.size port := by
  have hport {ip : Ip} {joined : List Char} (hread : readSocket joined =
      (readBelow UInt16.size port).map fun read => (ip, read)) :
      isSocketAddress joined = true ↔ Numeral UInt16.size port := by
    rw [isSocketAddress_iff, hread]
    constructor
    · rintro ⟨ip, number, hsome⟩
      obtain ⟨⟨number, rest⟩, hbelow, hsame⟩ := Option.map_eq_some_iff.mp hsome
      obtain ⟨-, rfl, rfl⟩ : _ ∧ _ ∧ rest = [] := by simpa using hsame
      exact (readBelow_eq_some_nil_iff.mp hbelow).1
    · intro hnumeral
      exact ⟨ip, _, Option.map_eq_some_iff.mpr
        ⟨_, readBelow_eq_some_nil_iff.mpr ⟨hnumeral, rfl⟩, rfl⟩⟩
  have hcolon := isV6_iff_colon_mem h
  unfold HostPort.joinChars
  rcases literal_cases h with ⟨octets, hoctets, hv4⟩ | ⟨-, hgroups, hv6⟩
  · rw [if_neg fun hmem => by simp [hcolon.mpr hmem] at hv4]
    exact hport (readSocket_of_octets hoctets port)
  · rw [if_pos (hcolon.mp hv6)]
    exact hport (readSocket_of_groups hgroups port)

end Ip

end Dialer
