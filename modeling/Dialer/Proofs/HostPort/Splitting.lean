import Dialer.HostPort
import Mathlib.Data.List.Basic

/-!
# Where a host with a port is split

A text is split at the first or at the last occurrence of a character, and there is one way to do so
(`splitFirst_eq_some_iff`, `splitLast_eq_some_iff`). From that, `split_eq_ok_iff` says which texts
are a host with a port, whatever the parts: `h:p`, where neither has a colon or a bracket, and
`[h]:p`, where the host may have colons.
-/

namespace Dialer.HostPort

/-- Without colons and brackets. -/
structure Plain (s : List Char) : Prop where
  colon : ':' ∉ s
  opening : '[' ∉ s
  closing : ']' ∉ s

/-- Without brackets. -/
structure Unbracketed (s : List Char) : Prop where
  opening : '[' ∉ s
  closing : ']' ∉ s

theorem Plain.unbracketed {s : List Char} (h : Plain s) : Unbracketed s :=
  ⟨h.opening, h.closing⟩

variable {c : Char} {s before behind : List Char}

/-! ## First and last occurrence -/

theorem splitFirst_append (hbefore : c ∉ before) (behind : List Char) :
    splitFirst c (before ++ c :: behind) = some (before, behind) := by
  induction before with
  | nil => exact if_pos rfl
  | cons x before ih =>
      obtain ⟨hx, hrest⟩ := not_or.mp fun h => hbefore (List.mem_cons.mpr h)
      have hsplit : splitFirst c (x :: before ++ c :: behind) =
          (splitFirst c (before ++ c :: behind)).map fun p => (x :: p.1, p.2) :=
        if_neg (Ne.symm hx)
      rw [hsplit, ih hrest]
      rfl

theorem splitFirst_eq_none_iff : splitFirst c s = none ↔ c ∉ s := by
  induction s with
  | nil => simp [splitFirst]
  | cons x s ih =>
      unfold splitFirst
      by_cases hx : x = c
      · simp [hx]
      · rw [if_neg hx, Option.map_eq_none_iff, ih, List.mem_cons, not_or]
        exact ⟨fun h => ⟨Ne.symm hx, h⟩, And.right⟩

theorem splitFirst_eq_some_iff :
    splitFirst c s = some (before, behind) ↔ s = before ++ c :: behind ∧ c ∉ before := by
  refine ⟨fun h => ?_, fun ⟨hs, hbefore⟩ => hs ▸ splitFirst_append hbefore behind⟩
  have hmem : c ∈ s := by
    by_contra hnone
    rw [splitFirst_eq_none_iff.mpr hnone] at h
    cases h
  obtain ⟨first, rest, rfl, hfirst⟩ := List.eq_append_cons_of_mem hmem
  rw [splitFirst_append hfirst] at h
  obtain ⟨rfl, rfl⟩ := Prod.mk.inj (Option.some.inj h)
  exact ⟨rfl, hfirst⟩

theorem splitLast_eq_none_iff : splitLast c s = none ↔ c ∉ s := by
  induction s with
  | nil => simp [splitLast]
  | cons x s ih =>
      unfold splitLast
      cases hrest : splitLast c s with
      | some parts =>
          have hmem : c ∈ s := by
            by_contra hnone
            rw [ih.mpr hnone] at hrest
            cases hrest
          simp [hmem]
      | none =>
          have hnone := ih.mp hrest
          by_cases hx : x = c
          · simp [hx]
          · simp [hx, hnone, Ne.symm hx]

theorem splitLast_append (before : List Char) (hbehind : c ∉ behind) :
    splitLast c (before ++ c :: behind) = some (before, behind) := by
  induction before with
  | nil =>
      unfold splitLast
      rw [List.nil_append]
      simp [splitLast_eq_none_iff.mpr hbehind]
  | cons x before ih =>
      unfold splitLast
      rw [List.cons_append]
      simp only [ih]

theorem splitLast_eq_some_iff :
    splitLast c s = some (before, behind) ↔ s = before ++ c :: behind ∧ c ∉ behind := by
  refine ⟨fun h => ?_, fun ⟨hs, hbehind⟩ => hs ▸ splitLast_append before hbehind⟩
  induction s generalizing before with
  | nil => cases h
  | cons x s ih =>
      unfold splitLast at h
      cases hrest : splitLast c s with
      | some parts =>
          obtain ⟨front, back⟩ := parts
          simp only [hrest] at h
          obtain ⟨rfl, rfl⟩ := Prod.mk.inj (Option.some.inj h)
          obtain ⟨rfl, hnone⟩ := ih hrest
          exact ⟨rfl, hnone⟩
      | none =>
          simp only [hrest] at h
          split at h
          · rename_i hx
            obtain ⟨rfl, rfl⟩ := Prod.mk.inj (Option.some.inj h)
            exact ⟨hx ▸ rfl, splitLast_eq_none_iff.mp hrest⟩
          · cases h

/-- There is one way to split at the last occurrence. -/
theorem split_last_unique {before' behind' : List Char} (hbehind : c ∉ behind)
    (hbehind' : c ∉ behind') (h : before ++ c :: behind = before' ++ c :: behind') :
    before = before' ∧ behind = behind' := by
  have hsplit := splitLast_append before hbehind
  rw [h, splitLast_append before' hbehind'] at hsplit
  obtain ⟨hfront, hback⟩ := Prod.mk.inj (Option.some.inj hsplit)
  exact ⟨hfront.symm, hback.symm⟩

/-! ## Which texts are split -/

variable {host port body : List Char}

theorem splitPlain_eq_ok_iff {parts : List Char × List Char} (hcolon : ':' ∉ port) :
    splitPlain host port = .ok parts ↔ (host, port) = parts ∧ Plain host ∧ Plain port := by
  unfold splitPlain
  constructor
  · intro h
    split at h
    · cases h
    · rename_i hhost
      split at h
      · cases h
      · rename_i hopening
        split at h
        · cases h
        · rename_i hclosing
          rw [List.mem_append, not_or] at hopening hclosing
          exact ⟨Except.ok.inj h, ⟨hhost, hopening.1, hclosing.1⟩, ⟨hcolon, hopening.2, hclosing.2⟩⟩
  · rintro ⟨rfl, hhost, hport⟩
    rw [if_neg hhost.colon, if_neg (by simp [hhost.opening, hport.opening]),
      if_neg (by simp [hhost.closing, hport.closing])]

theorem splitBracketed_append (hclosing : ']' ∉ host) (behind : List Char) :
    splitBracketed (host ++ ']' :: behind) =
      match behind with
      | [] => .error .missingPort
      | c :: port =>
        if c ≠ ':' then .error .missingPort
        else if ':' ∈ port then .error .tooManyColons
        else if '[' ∈ host ++ ']' :: behind then .error .unexpectedOpening
        else if ']' ∈ port then .error .unexpectedClosing
        else .ok (host, port) := by
  unfold splitBracketed
  rw [splitFirst_append hclosing]
  cases behind <;> rfl

theorem splitBracketed_eq_ok_iff {parts : List Char × List Char} :
    splitBracketed body = .ok parts ↔ ∃ host port, (host, port) = parts ∧
      body = host ++ ']' :: ':' :: port ∧ Unbracketed host ∧ Plain port := by
  constructor
  · intro h
    by_cases hmem : ']' ∈ body
    · obtain ⟨host, behind, rfl, hclosing⟩ := List.eq_append_cons_of_mem hmem
      rw [splitBracketed_append hclosing] at h
      cases behind with
      | nil => cases h
      | cons c port =>
          dsimp only at h
          split at h
          · cases h
          · rename_i hc
            split at h
            · cases h
            · rename_i hcolon
              split at h
              · cases h
              · rename_i hopening
                split at h
                · cases h
                · rename_i hport
                  obtain rfl : c = ':' := by simpa using hc
                  simp only [List.mem_append, List.mem_cons, not_or] at hopening
                  exact ⟨host, port, Except.ok.inj h, rfl, ⟨hopening.1, hclosing⟩,
                    ⟨hcolon, hopening.2.2.2, hport⟩⟩
    · unfold splitBracketed at h
      rw [splitFirst_eq_none_iff.mpr hmem] at h
      cases h
  · rintro ⟨host, port, rfl, rfl, hhost, hport⟩
    rw [splitBracketed_append hhost.closing]
    dsimp only
    rw [if_neg (by simp), if_neg hport.colon, if_neg, if_neg hport.closing]
    simp [hhost.opening, hport.opening]

theorem split_bracketed (body : List Char) (hcolon : ':' ∈ body) :
    split ('[' :: body) = splitBracketed body := by
  unfold split
  cases hlast : splitLast ':' ('[' :: body) with
  | none => exact absurd (List.mem_cons_of_mem _ hcolon) (splitLast_eq_none_iff.mp hlast)
  | some parts => rfl

theorem head?_ne_opening (hopening : '[' ∉ host) (behind : List Char) :
    (host ++ ':' :: behind).head? ≠ some '[' := by
  cases host with
  | nil => simp
  | cons c host =>
      intro h
      obtain rfl := Option.some.inj h
      exact hopening List.mem_cons_self

theorem split_plain (hcolon : ':' ∉ port) (hhead : (host ++ ':' :: port).head? ≠ some '[') :
    split (host ++ ':' :: port) = splitPlain host port := by
  unfold split
  rw [splitLast_append host hcolon]
  dsimp only
  split
  · rename_i hs
    rw [hs] at hhead
    exact absurd rfl hhead
  · rfl

/-- **Which texts are a host with a port.** -/
theorem split_eq_ok_iff {parts : List Char × List Char} :
    split s = .ok parts ↔ ∃ host port, (host, port) = parts ∧ Plain port ∧
      (s = host ++ ':' :: port ∧ Plain host ∨
        s = '[' :: (host ++ ']' :: ':' :: port) ∧ Unbracketed host) := by
  constructor
  · intro h
    have hcolon : ':' ∈ s := by
      by_contra hnone
      rw [split, splitLast_eq_none_iff.mpr hnone] at h
      cases h
    by_cases hhead : s.head? = some '['
    · obtain ⟨body, rfl⟩ := List.head?_eq_some_iff.mp hhead
      rw [split_bracketed body (by simpa using hcolon)] at h
      obtain ⟨host, port, hparts, rfl, hhost, hport⟩ := splitBracketed_eq_ok_iff.mp h
      exact ⟨host, port, hparts, hport, .inr ⟨rfl, hhost⟩⟩
    · obtain ⟨⟨host, port⟩, hlast⟩ :=
        Option.ne_none_iff_exists'.mp fun h => splitLast_eq_none_iff.mp h hcolon
      obtain ⟨rfl, hport⟩ := splitLast_eq_some_iff.mp hlast
      rw [split_plain hport hhead] at h
      obtain ⟨hparts, hplain, hbehind⟩ := (splitPlain_eq_ok_iff hport).mp h
      exact ⟨host, port, hparts, hbehind, .inl ⟨rfl, hplain⟩⟩
  · rintro ⟨host, port, rfl, hport, ⟨rfl, hhost⟩ | ⟨rfl, hhost⟩⟩
    · rw [split_plain hport.colon (head?_ne_opening hhost.opening port)]
      exact (splitPlain_eq_ok_iff hport.colon).mpr ⟨rfl, hhost, hport⟩
    · rw [split_bracketed _ (by simp)]
      exact splitBracketed_eq_ok_iff.mpr ⟨host, port, rfl, rfl, hhost, hport⟩

end Dialer.HostPort
