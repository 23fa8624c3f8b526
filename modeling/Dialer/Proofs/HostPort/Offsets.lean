import Dialer.Proofs.HostPort.Splitting

/-!
# Splitting by byte offsets

`splitAtOffsets` splits a host with a port as a program does that knows a text by its bytes: it
searches for the offsets of a colon and a bracket, adds one to them, looks at the byte there and
cuts the text at them. A text can only be cut between two characters, and a byte is only found
inside it, so that each of these steps may fail; `none` stands for that.

None of them does, on any text, and the result is that of `split` (`splitAtOffsets_eq`). The same
holds of the two attempts together (`readAtOffsets_eq`).
-/

namespace Dialer.HostPort

/-! ## Offsets -/

/-- The number of bytes of a text. -/
def width : List Char → Nat
  | [] => 0
  | x :: rest => x.utf8Size + width rest

/-- The offset of the first occurrence of a character. -/
def findOffset (c : Char) : List Char → Option Nat
  | [] => none
  | x :: rest => if x = c then some 0 else (findOffset c rest).map (x.utf8Size + ·)

/-- The offset of the last occurrence of a character. -/
def findLastOffset (c : Char) : List Char → Option Nat
  | [] => none
  | x :: rest =>
    match findLastOffset c rest with
    | some i => some (x.utf8Size + i)
    | none => if x = c then some 0 else none

/-- The text from an offset on, unless the offset is beyond the end or inside a character. -/
def cutFrom : Nat → List Char → Option (List Char)
  | 0, s => some s
  | _ + 1, [] => none
  | i + 1, x :: rest => if i + 1 < x.utf8Size then none else cutFrom (i + 1 - x.utf8Size) rest

/-- The text up to an offset, unless the offset is beyond the end or inside a character. -/
def cutTo : Nat → List Char → Option (List Char)
  | 0, _ => some []
  | _ + 1, [] => none
  | i + 1, x :: rest =>
    if i + 1 < x.utf8Size then none else (cutTo (i + 1 - x.utf8Size) rest).map (x :: ·)

/-- The byte at an offset, unless the offset is beyond the end. -/
def byteAt (i : Nat) (s : List Char) : Option UInt8 :=
  (s.flatMap String.utf8EncodeChar)[i]?

variable {c : Char} {s before behind : List Char}

@[simp] theorem width_nil : width [] = 0 := rfl

@[simp] theorem width_cons (x : Char) (s : List Char) : width (x :: s) = x.utf8Size + width s := rfl

@[simp] theorem width_append (s t : List Char) : width (s ++ t) = width s + width t := by
  induction s with
  | nil => simp
  | cons x s ih => rw [List.cons_append, width_cons, width_cons, ih, Nat.add_assoc]

theorem length_bytes (s : List Char) : (s.flatMap String.utf8EncodeChar).length = width s := by
  induction s with
  | nil => rfl
  | cons x s ih =>
      rw [List.flatMap_cons, List.length_append, ih, String.length_utf8EncodeChar, width_cons]

theorem findOffset_eq (c : Char) (s : List Char) :
    findOffset c s = (splitFirst c s).map fun parts => width parts.1 := by
  induction s with
  | nil => rfl
  | cons x s ih =>
      unfold findOffset splitFirst
      split
      · rfl
      · rw [ih, Option.map_map, Option.map_map]
        exact congrArg (Option.map · _) (funext fun parts => (width_cons x parts.1).symm)

theorem findLastOffset_eq (c : Char) (s : List Char) :
    findLastOffset c s = (splitLast c s).map fun parts => width parts.1 := by
  induction s with
  | nil => rfl
  | cons x s ih =>
      unfold findLastOffset splitLast
      rw [ih]
      cases splitLast c s with
      | some parts => exact congrArg some (width_cons x parts.1).symm
      | none =>
          dsimp only [Option.map_none]
          split <;> rfl

/-- An offset behind a character goes on in the rest of the text. -/
theorem width_cons_succ (x : Char) (before : List Char) :
    ∃ i, width (x :: before) = i + 1 ∧ ¬ i + 1 < x.utf8Size ∧
      i + 1 - x.utf8Size = width before := by
  have hpos := x.utf8Size_pos
  rw [width_cons]
  exact ⟨x.utf8Size - 1 + width before, by omega, by omega, by omega⟩

theorem cutFrom_width (before behind : List Char) :
    cutFrom (width before) (before ++ behind) = some behind := by
  induction before with
  | nil => cases behind <;> rfl
  | cons x before ih =>
      obtain ⟨i, hi, hle, hrest⟩ := width_cons_succ x before
      rw [hi, List.cons_append, cutFrom, if_neg hle, hrest, ih]

theorem cutTo_width (before behind : List Char) :
    cutTo (width before) (before ++ behind) = some before := by
  induction before with
  | nil => cases behind <;> rfl
  | cons x before ih =>
      obtain ⟨i, hi, hle, hrest⟩ := width_cons_succ x before
      rw [hi, List.cons_append, cutTo, if_neg hle, hrest, ih]
      rfl

/-- The lead byte of a character is a colon only if the character is one. -/
theorem lead_byte (c : Char) :
    ∃ b, (String.utf8EncodeChar c)[0]? = some b ∧ (b = 0x3a ↔ c = ':') := by
  have hbyte : ∀ n, n < 256 → (UInt8.ofNat n = 0x3a ↔ n = 58) := fun n hn => by
    rw [← UInt8.toNat_inj, UInt8.toNat_ofNat_of_lt' hn]
    rfl
  have hcolon : c = ':' ↔ c.val.toNat = 58 :=
    ⟨fun h => h ▸ rfl, fun h => Char.ext (UInt32.toNat_inj.mp h)⟩
  unfold String.utf8EncodeChar
  dsimp only
  split
  · exact ⟨_, rfl, by rw [hbyte _ (by omega), hcolon]⟩
  · -- the lead byte of a longer encoding is above those of the one-byte characters
    have hne : ¬c = ':' := by
      rw [hcolon]
      omega
    split
    · exact ⟨_, rfl, by rw [hbyte _ (by omega)]; simp only [hne, iff_false]; omega⟩
    · split
      · exact ⟨_, rfl, by rw [hbyte _ (by omega)]; simp only [hne, iff_false]; omega⟩
      · exact ⟨_, rfl, by rw [hbyte _ (by omega)]; simp only [hne, iff_false]; omega⟩

/-- Where a character starts there is a byte. -/
theorem byteAt_width (before behind : List Char) (c : Char) :
    ∃ b, byteAt (width before) (before ++ c :: behind) = some b ∧ (b = 0x3a ↔ c = ':') := by
  obtain ⟨b, hlead, hb⟩ := lead_byte c
  refine ⟨b, ?_, hb⟩
  have hlength : 0 < (String.utf8EncodeChar c).length := by
    rw [String.length_utf8EncodeChar]
    exact c.utf8Size_pos
  unfold byteAt
  rw [List.flatMap_append, List.getElem?_append_right (Nat.le_of_eq (length_bytes before)),
    length_bytes, Nat.sub_self, List.flatMap_cons, List.getElem?_append_left hlength, hlead]

/-! ## The splitter -/

/-- The end of `splitAtOffsets`: the brackets that remain to be looked for from two offsets on, and
the port behind the colon. -/
def finishAtOffsets (s host : List Char) (colon openings closings : Nat) :
    Option (Except SplitFault (List Char × List Char)) := do
  if '[' ∈ (← cutFrom openings s) then
    return .error .unexpectedOpening
  if ']' ∈ (← cutFrom closings s) then
    return .error .unexpectedClosing
  return .ok (host, ← cutFrom (colon + 1) s)

/-- Splits a host with a port at byte offsets. -/
def splitAtOffsets (s : List Char) : Option (Except SplitFault (List Char × List Char)) :=
  match findLastOffset ':' s with
  | none => return .error .missingPort
  | some colon =>
    if s.head? = some '[' then
      match findOffset ']' s with
      | none => return .error .missingBracket
      | some stop =>
        if stop + 1 = width s then
          return .error .missingPort
        else if stop + 1 ≠ colon then do
          return .error (if (← byteAt (stop + 1) s) = 0x3a then .tooManyColons else .missingPort)
        else do
          let host ← cutFrom 1 (← cutTo stop s)
          finishAtOffsets s host colon 1 (stop + 1)
    else do
      let host ← cutTo colon s
      if ':' ∈ host then
        return .error .tooManyColons
      finishAtOffsets s host colon 0 0

/-- Reads a host with an optional port at byte offsets. -/
def readAtOffsets (s defaultPort : List Char) :
    Option (Except Refusal (List Char × List Char)) :=
  if s.isEmpty then return .error .empty
  else if (Ip.read? s).isSome then return .ok (s, defaultPort)
  else do
    match ← splitAtOffsets s with
    | .ok (host, port) =>
      if port.isEmpty then return .error .noPort
      return .ok (if host.isEmpty then localhost else host, port)
    | .error _ =>
      match ← splitAtOffsets (s ++ ':' :: defaultPort) with
      | .ok parts => return .ok parts
      | .error fault => return .error (.unsplittable fault)

variable {host port body : List Char}

/-- An offset tells where a text is cut. -/
theorem eq_of_width_eq {before' behind' : List Char} (hs : before ++ behind = before' ++ behind')
    (hwidth : width before = width before') : before = before' := by
  have hcut := cutTo_width before behind
  rw [hs, hwidth, cutTo_width before' behind'] at hcut
  exact (Option.some.inj hcut).symm

/-- Behind a colon or a bracket the offset is one further. -/
theorem cutFrom_succ (before behind : List Char) (hc : c.utf8Size = 1) :
    cutFrom (width before + 1) (before ++ c :: behind) = some behind := by
  have hcut := cutFrom_width (before ++ [c]) behind
  rwa [width_append, width_cons, hc, width_nil, List.append_assoc] at hcut

theorem finishAtOffsets_eq {openings closings : List Char} {i j : Nat}
    (hs : s = before ++ ':' :: port)
    (hopenings : cutFrom i s = some openings) (hclosings : cutFrom j s = some closings) :
    finishAtOffsets s host (width before) i j =
      some (if '[' ∈ openings then .error .unexpectedOpening
        else if ']' ∈ closings then .error .unexpectedClosing
        else .ok (host, port)) := by
  unfold finishAtOffsets
  rw [hopenings, hclosings, hs, cutFrom_succ before port (by decide)]
  simp only [Option.bind_eq_bind, Option.bind_some, Option.pure_def]
  split
  · rfl
  · split <;> rfl

/-- Without an opening bracket in front, the host is what stands before the last colon. -/
theorem splitAtOffsets_plain (hs : (host ++ ':' :: port).head? ≠ some '[') (hcolon : ':' ∉ port) :
    splitAtOffsets (host ++ ':' :: port) = some (splitPlain host port) := by
  have hall : cutFrom 0 (host ++ ':' :: port) = some (host ++ ':' :: port) := by
    cases host <;> rfl
  unfold splitAtOffsets
  rw [findLastOffset_eq, splitLast_append host hcolon]
  dsimp only [Option.map_some]
  rw [if_neg hs, cutTo_width]
  unfold splitPlain
  simp only [Option.bind_eq_bind, Option.bind_some, Option.pure_def]
  split
  · rfl
  · rw [finishAtOffsets_eq rfl hall hall]
    simp

/-- With an opening bracket in front, the host is what stands before the first closing one. -/
theorem splitAtOffsets_bracketed (hs : '[' :: body = before ++ ':' :: port) (hcolon : ':' ∉ port) :
    splitAtOffsets ('[' :: body) = some (splitBracketed body) := by
  have hbracket : ']' ≠ '[' := by decide
  unfold splitAtOffsets
  rw [findLastOffset_eq, hs, splitLast_append before hcolon, ← hs, findOffset_eq]
  dsimp only [Option.map_some]
  rw [if_pos (by rfl)]
  by_cases hmem : ']' ∈ body
  · obtain ⟨host, behind, rfl, hclosing⟩ := List.eq_append_cons_of_mem hmem
    have hfront : ']' ∉ '[' :: host := by simpa using hclosing
    have hfirst : splitFirst ']' ('[' :: (host ++ ']' :: behind)) = some ('[' :: host, behind) :=
      splitFirst_append hfront behind
    have henclosed : '[' :: (host ++ ']' :: behind) = ('[' :: (host ++ [']'])) ++ behind := by simp
    have hwidth : width ('[' :: (host ++ [']'])) = width ('[' :: host) + 1 := by
      rw [← List.cons_append, width_append]
      rfl
    rw [hfirst, splitBracketed_append hclosing]
    dsimp only [Option.map_some]
    cases behind with
    | nil =>
        rw [if_pos (by rw [← hwidth])]
        rfl
    | cons c rest =>
        have hinside : width ('[' :: host) + 1 ≠ width ('[' :: (host ++ ']' :: c :: rest)) := by
          have hpos := c.utf8Size_pos
          rw [henclosed, width_append, hwidth, width_cons c rest]
          omega
        rw [if_neg hinside]
        by_cases hlast : c = ':' ∧ ':' ∉ rest
        · obtain ⟨rfl, hrest⟩ := hlast
          obtain ⟨rfl, rfl⟩ := split_last_unique hcolon hrest (hs.symm.trans henclosed)
          have hopenings : ∀ rest, cutFrom 1 ('[' :: rest) = some rest := fun rest =>
            cutFrom_succ [] rest (by decide)
          have hcut : cutTo (width ('[' :: host)) ('[' :: (host ++ ']' :: ':' :: port)) =
              some ('[' :: host) := cutTo_width ('[' :: host) (']' :: ':' :: port)
          have hclosings : cutFrom (width ('[' :: host) + 1) ('[' :: (host ++ ']' :: ':' :: port)) =
              some (':' :: port) := cutFrom_succ ('[' :: host) (':' :: port) (by decide)
          rw [if_neg (not_not.mpr hwidth.symm), hcut]
          simp only [Option.bind_eq_bind, Option.bind_some, hopenings]
          rw [finishAtOffsets_eq henclosed (hopenings _) hclosings]
          simp [hcolon]
        · have hbefore : width ('[' :: host) + 1 ≠ width before := by
            rw [← hwidth]
            intro hwidth
            obtain rfl := eq_of_width_eq (henclosed.symm.trans hs) hwidth
            obtain ⟨rfl, rfl⟩ := List.cons.inj (List.append_cancel_left (henclosed.symm.trans hs))
            exact hlast ⟨rfl, hcolon⟩
          obtain ⟨b, hbyte, hb⟩ := byteAt_width ('[' :: (host ++ [']'])) rest c
          rw [if_pos hbefore, henclosed, ← hwidth, hbyte]
          by_cases hc : c = ':'
          · have hrest : ':' ∈ rest := not_not.mp fun hnone => hlast ⟨hc, hnone⟩
            simp [hb.mpr hc, hc, hrest]
          · simp [mt hb.mp hc, hc]
  · have hnone : splitFirst ']' ('[' :: body) = none :=
      splitFirst_eq_none_iff.mpr (by simpa using hmem)
    unfold splitBracketed
    rw [hnone, splitFirst_eq_none_iff.mpr hmem]
    rfl

/-- **No index is out of bounds or inside a character**, and splitting by offsets is splitting. -/
theorem splitAtOffsets_eq (s : List Char) : splitAtOffsets s = some (split s) := by
  by_cases hmem : ':' ∈ s
  · obtain ⟨⟨host, port⟩, hlast⟩ :=
      Option.ne_none_iff_exists'.mp fun h => splitLast_eq_none_iff.mp h hmem
    obtain ⟨hs, hcolon⟩ := splitLast_eq_some_iff.mp hlast
    cases s with
    | nil => cases hmem
    | cons x body =>
        by_cases hx : x = '['
        · subst hx
          rw [splitAtOffsets_bracketed hs hcolon, split_bracketed body (by simpa using hmem)]
        · have hhead : (x :: body).head? ≠ some '[' := fun h => hx (Option.some.inj h)
          rw [hs] at hhead ⊢
          rw [splitAtOffsets_plain hhead hcolon, split_plain hcolon hhead]
  · have hlast := splitLast_eq_none_iff.mpr hmem
    unfold splitAtOffsets split
    rw [findLastOffset_eq, hlast]
    rfl

/-- Reading by offsets is reading. -/
theorem readAtOffsets_eq (s d : List Char) : readAtOffsets s d = some (read s d) := by
  unfold readAtOffsets read
  rw [splitAtOffsets_eq, splitAtOffsets_eq]
  simp only [Option.pure_def, Option.bind_eq_bind, Option.bind_some]
  split
  · rfl
  · split
    · rfl
    · cases split s with
      | ok parts =>
          dsimp only
          split <;> rfl
      | error fault => cases split (s ++ ':' :: d) <;> rfl

end Dialer.HostPort
