import Dialer.Ip.Reader
import Mathlib.Data.List.TakeWhile

/-!
# What IP literals look like

Each reader of numeric addresses takes a piece off the front of a text (`Takes`): digits and points
for octets, and colons as well for groups. A literal of four octets so has no colon. One of eight
groups has two of them at least, since either six groups stand behind a colon, or some are left out
and two colons are in their place. No literal has a bracket, and none has exactly one colon: a
literal is never a host with a port.
-/

namespace Dialer.Ip

open Dialer.Text

/-- A decimal digit or a point. -/
def IsDotted (c : Char) : Prop :=
  isDigitOf 10 c = true ∨ c = '.'

/-- A hexadecimal digit, a point or a colon. -/
def IsNumeric (c : Char) : Prop :=
  isDigitOf 16 c = true ∨ c = '.' ∨ c = ':'

/-- A piece at the front of a text, of certain characters and with so many colons at least, has been
taken off. -/
def Takes (allowed : Char → Prop) (colons : Nat) (s rest : List Char) : Prop :=
  ∃ taken, s = taken ++ rest ∧ (∀ c ∈ taken, allowed c) ∧ colons ≤ taken.count ':'

namespace Takes

variable {allowed : Char → Prop} {m n : Nat} {s t u : List Char}

theorem nothing (allowed : Char → Prop) (s : List Char) : Takes allowed 0 s s :=
  ⟨[], rfl, fun _ h => absurd h List.not_mem_nil, Nat.zero_le _⟩

theorem trans (h : Takes allowed m s t) (h' : Takes allowed n t u) : Takes allowed (m + n) s u := by
  obtain ⟨first, rfl, hfirst, hm⟩ := h
  obtain ⟨second, rfl, hsecond, hn⟩ := h'
  refine ⟨first ++ second, (List.append_assoc ..).symm, ?_, ?_⟩
  · exact List.forall_mem_append.mpr ⟨hfirst, hsecond⟩
  · rw [List.count_append]
    omega

theorem mono {other : Char → Prop} (h : Takes allowed m s t) (himp : ∀ c, allowed c → other c)
    (hle : n ≤ m) : Takes other n s t := by
  obtain ⟨taken, hs, hall, hm⟩ := h
  exact ⟨taken, hs, fun c hc => himp c (hall c hc), Nat.le_trans hle hm⟩

theorem all (h : Takes allowed m s []) : (∀ c ∈ s, allowed c) ∧ m ≤ s.count ':' := by
  obtain ⟨taken, rfl, hall, hm⟩ := h
  rw [List.append_nil]
  exact ⟨hall, hm⟩

end Takes

theorem IsDotted.numeric {c : Char} (h : IsDotted c) : IsNumeric c := by
  rcases h with hdigit | rfl
  · refine .inl ?_
    simp only [isDigitOf, decide_eq_true_eq] at hdigit ⊢
    omega
  · exact .inr (.inl rfl)

/-! ## What the readers take -/

variable {s rest : List Char}

theorem readChar_eq_some {c : Char} : readChar c s = some rest ↔ s = c :: rest := by
  cases s with
  | nil => simp [readChar]
  | cons x s =>
      unfold readChar
      split <;> simp_all

theorem takes_digits (base : Nat) (s : List Char) :
    Takes (isDigitOf base · = true) 0 s (spanDigits base s).2 :=
  ⟨s.takeWhile (isDigitOf base), List.takeWhile_append_dropWhile.symm,
    fun _ h => List.mem_takeWhile_imp h, Nat.zero_le _⟩

theorem readOctet_takes {value : Nat} (h : readOctet s = some (value, rest)) :
    Takes IsDotted 0 s rest := by
  have hdigits := takes_digits 10 s
  unfold readOctet at h
  generalize spanDigits 10 s = spanned at h hdigits
  obtain ⟨digits, behind⟩ := spanned
  dsimp only at h hdigits
  split at h
  · cases h
  · split at h
    · cases h
    · obtain ⟨-, rfl⟩ := Prod.mk.inj (Option.some.inj h)
      exact hdigits.mono (fun _ => .inl) (Nat.le_refl _)

theorem readGroup_takes {value : Nat} (h : readGroup s = some (value, rest)) :
    Takes IsNumeric 0 s rest := by
  have hdigits := takes_digits 16 s
  unfold readGroup at h
  generalize spanDigits 16 s = spanned at h hdigits
  obtain ⟨digits, behind⟩ := spanned
  dsimp only at h hdigits
  split at h
  · cases h
  · obtain ⟨-, rfl⟩ := Prod.mk.inj (Option.some.inj h)
    exact hdigits.mono (fun _ => .inl) (Nat.le_refl _)

theorem takes_point (rest : List Char) : Takes IsDotted 0 ('.' :: rest) rest :=
  ⟨['.'], rfl, fun _ h => .inr (List.mem_singleton.mp h), Nat.zero_le _⟩

theorem takes_colon (rest : List Char) : Takes IsNumeric 1 (':' :: rest) rest :=
  ⟨[':'], rfl, fun _ h => .inr (.inr (List.mem_singleton.mp h)), Nat.le_refl _⟩

theorem readOctets_takes {octets : List Nat} (h : readOctets s = some (octets, rest)) :
    Takes IsDotted 0 s rest ∧ octets.length = 4 := by
  simp only [readOctets, Option.bind_eq_bind, Option.bind_eq_some_iff] at h
  obtain ⟨⟨a, s₁⟩, ha, s₂, hs₁, ⟨b, s₃⟩, hb, s₄, hs₃, ⟨c, s₅⟩, hc, s₆, hs₅, ⟨d, s₇⟩, hd, h⟩ := h
  obtain ⟨rfl, rfl⟩ := Prod.mk.inj (Option.some.inj h)
  obtain rfl := readChar_eq_some.mp hs₁
  obtain rfl := readChar_eq_some.mp hs₃
  obtain rfl := readChar_eq_some.mp hs₅
  refine ⟨?_, rfl⟩
  exact (readOctet_takes ha).trans ((takes_point _).trans ((readOctet_takes hb).trans
    ((takes_point _).trans ((readOctet_takes hc).trans ((takes_point _).trans
      (readOctet_takes hd))))))

/-- Each group but the first has a colon before it, and two that are written as octets have one. -/
theorem readGroups_takes (first : Bool) (room : Nat) (s : List Char) :
    ∃ colons, Takes IsNumeric colons s (readGroups first room s).rest ∧
      (readGroups first room s).groups.length ≤
        colons + first.toNat + (readGroups first room s).dotted.toNat := by
  induction room generalizing first s with
  | zero => exact ⟨0, .nothing _ s, Nat.zero_le _⟩
  | succ room ih =>
      unfold readGroups
      -- the colon that stands before the group, unless it is the first
      have hitem : (if first then some s else readChar ':' s) = none ∨ ∃ body colons,
          (if first then some s else readChar ':' s) = some body ∧
            Takes IsNumeric colons s body ∧ colons + first.toNat = 1 := by
        cases first with
        | true => exact .inr ⟨s, 0, rfl, .nothing _ s, rfl⟩
        | false =>
            cases hchar : readChar ':' s with
            | none => exact .inl rfl
            | some body =>
                obtain rfl := readChar_eq_some.mp hchar
                exact .inr ⟨body, 1, rfl, takes_colon body, rfl⟩
      rcases hitem with hnone | ⟨body, colons, hbody, htakes, hone⟩
      · rw [hnone]
        exact ⟨0, .nothing _ s, Nat.zero_le _⟩
      · rw [hbody]
        dsimp only
        split
        · rename_i octets behind hoctets
          have hread : readOctets body = some (octets, behind) := by
            by_cases hroom : room > 0
            · rwa [if_pos hroom] at hoctets
            · rw [if_neg hroom] at hoctets
              cases hoctets
          have hdotted :=
            (readOctets_takes hread).1.mono (fun _ => IsDotted.numeric) (Nat.le_refl _)
          refine ⟨colons + 0, htakes.trans hdotted, ?_⟩
          show 2 ≤ colons + 0 + first.toNat + 1
          omega
        · split
          · exact ⟨0, .nothing _ s, Nat.zero_le _⟩
          · rename_i g behind hgroup
            obtain ⟨later, hlater, hlength⟩ := ih false behind
            refine ⟨colons + (0 + later), htakes.trans ((readGroup_takes hgroup).trans hlater), ?_⟩
            dsimp only
            rw [List.length_cons]
            simp only [Bool.toNat_false] at hlength
            omega

theorem readV6_takes {ip : Ip} (h : readV6 s = some (ip, rest)) :
    Takes IsNumeric 2 s rest ∧ ip.isV6 = true := by
  unfold readV6 at h
  obtain ⟨colons, htakes, hlength⟩ := readGroups_takes true 8 s
  dsimp only at h
  split at h
  · rename_i height
    obtain ⟨rfl, rfl⟩ := Prod.mk.inj (Option.some.inj h)
    have hdotted : (readGroups true 8 s).dotted.toNat ≤ 1 := Bool.toNat_le _
    rw [height, Bool.toNat_true] at hlength
    exact ⟨htakes.mono (fun _ => id) (by omega), rfl⟩
  · split at h
    · cases h
    · simp only [Option.bind_eq_bind, Option.bind_eq_some_iff] at h
      obtain ⟨s₁, hs, s₂, hs₁, h⟩ := h
      obtain ⟨rfl, rfl⟩ := Prod.mk.inj (Option.some.inj h)
      have hhead := readChar_eq_some.mp hs
      obtain rfl := readChar_eq_some.mp hs₁
      rw [hhead] at htakes
      obtain ⟨more, htail, -⟩ :=
        readGroups_takes true (7 - (readGroups true 8 s).groups.length) s₂
      have hall := htakes.trans ((takes_colon _).trans ((takes_colon _).trans htail))
      exact ⟨hall.mono (fun _ => id) (by omega), rfl⟩

/-! ## Literals -/

/-- A literal is read as octets, or else as groups. -/
theorem literal_cases {ip : Ip} (h : read? s = some ip) :
    (∃ octets, readOctets s = some (octets, []) ∧ ip.isV6 = false) ∨
      (readOctets s = none ∧ readV6 s = some (ip, []) ∧ ip.isV6 = true) := by
  unfold read? readAny at h
  cases hoctets : readOctets s with
  | some read =>
      obtain ⟨octets, rest⟩ := read
      rw [hoctets] at h
      cases rest with
      | cons c rest => cases h
      | nil =>
          obtain rfl := Option.some.inj h
          exact .inl ⟨octets, rfl, rfl⟩
  | none =>
      rw [hoctets] at h
      dsimp only at h
      split at h
      · rename_i hread
        obtain rfl := Option.some.inj h
        exact .inr ⟨rfl, hread, (readV6_takes hread).2⟩
      · cases h

/-- A literal has digits and points only, or it has two colons at least. -/
theorem read?_cases {ip : Ip} (h : read? s = some ip) :
    (ip.isV6 = false ∧ ∀ c ∈ s, IsDotted c) ∨
      (ip.isV6 = true ∧ 2 ≤ s.count ':' ∧ ∀ c ∈ s, IsNumeric c) := by
  rcases literal_cases h with ⟨octets, hoctets, hv4⟩ | ⟨-, hgroups, hv6⟩
  · exact .inl ⟨hv4, (readOctets_takes hoctets).1.all.1⟩
  · have htakes := (readV6_takes hgroups).1
    exact .inr ⟨hv6, htakes.all.2, htakes.all.1⟩

theorem isNumeric_of_read? {ip : Ip} (h : read? s = some ip) {c : Char} (hc : c ∈ s) :
    IsNumeric c := by
  rcases read?_cases h with ⟨-, hall⟩ | ⟨-, -, hall⟩
  · exact (hall c hc).numeric
  · exact hall c hc

theorem bracket_not_mem_of_read? {ip : Ip} (h : read? s = some ip) : '[' ∉ s ∧ ']' ∉ s := by
  refine ⟨fun hmem => ?_, fun hmem => ?_⟩
  · have hnumeric := isNumeric_of_read? h hmem
    simp [IsNumeric, isDigitOf, digitValue] at hnumeric
  · have hnumeric := isNumeric_of_read? h hmem
    simp [IsNumeric, isDigitOf, digitValue] at hnumeric

/-- A literal has groups exactly if it has a colon. -/
theorem isV6_iff_colon_mem {ip : Ip} (h : read? s = some ip) : ip.isV6 = true ↔ ':' ∈ s := by
  rcases read?_cases h with ⟨hv4, hall⟩ | ⟨hv6, hcolons, -⟩
  · refine ⟨fun hv6 => ?_, fun hmem => ?_⟩
    · rw [hv4] at hv6
      cases hv6
    · have hdotted := hall ':' hmem
      simp [IsDotted, isDigitOf, digitValue] at hdotted
  · exact ⟨fun _ => List.count_pos_iff.mp (by omega), fun _ => hv6⟩

theorem count_colon_ne_one {ip : Ip} (h : read? s = some ip) : s.count ':' ≠ 1 := by
  intro hone
  rcases read?_cases h with ⟨hv4, -⟩ | ⟨-, hcolons, -⟩
  · have hcolon := (isV6_iff_colon_mem h).mpr (List.count_pos_iff.mp (by omega))
    rw [hv4] at hcolon
    cases hcolon
  · omega

end Dialer.Ip
