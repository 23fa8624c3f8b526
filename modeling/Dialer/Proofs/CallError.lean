import Dialer.CallError
import Mathlib.Data.List.Infix

/-!
# Rendered errors read again

The kind that a status stands for hangs on which of two texts it mentions, that of a closing
transport first. An error that is rendered puts a heading in front of a status. No occurrence of
either text begins in a heading and goes on behind it, so for most headings the status alone decides
what the whole is read as (`kind_ofStatus_append`): that of used up attempts, with any count, is
`Neutral`, and so are those of a failure and of a success. The heading of a closing transport is
such a text itself, and stands in front of a status that mentions it anyway. Whoever reads a
rendered status again thus finds the kind that it had, however often it was wrapped
(`rendered_kind`).
-/

namespace Dialer.CallError

variable {part before after : List Char}

/-! ## Mentioning -/

/-- A text mentions what is in it in one piece. -/
theorem mentions_iff {text : List Char} : mentions text part = true ↔ part <:+: text := by
  induction text with
  | nil => simp [mentions]
  | cons c rest ih =>
      rw [mentions, Bool.or_eq_true, ih, List.isPrefixOf_iff_prefix, List.infix_cons_iff]

/-- No occurrence of a part begins in the text, whatever follows it: neither does the part fit in
there, nor does what is left of the text begin the part. -/
def Apart (part : List Char) : List Char → Prop
  | [] => True
  | c :: rest => ¬ part <+: c :: rest ∧ ¬ c :: rest <+: part ∧ Apart part rest

instance decidableApart (part : List Char) : (text : List Char) → Decidable (Apart part text)
  | [] => inferInstanceAs (Decidable True)
  | c :: rest =>
    have := decidableApart part rest
    inferInstanceAs (Decidable (¬ part <+: c :: rest ∧ ¬ c :: rest <+: part ∧ Apart part rest))

/-- Two texts that part ways do so whatever follows the one. -/
theorem apart_append (hbefore : Apart part before) (hafter : Apart part after) :
    Apart part (before ++ after) := by
  induction before with
  | nil => exact hafter
  | cons c rest ih =>
      obtain ⟨hwithin, hbeyond, hrest⟩ := hbefore
      have hstarts : c :: rest <+: c :: rest ++ after := List.prefix_append _ _
      refine ⟨fun hpart => ?_, fun htext => hbeyond (hstarts.trans htext), ih hrest⟩
      rcases List.prefix_or_prefix_of_prefix hpart hstarts with hfits | hbegins
      · exact hwithin hfits
      · exact hbeyond hbegins

theorem apart_of_not_mem {c : Char} {text : List Char} (h : c ∉ text) :
    Apart (c :: part) text := by
  induction text with
  | nil => trivial
  | cons d rest ih =>
      obtain ⟨hne, hrest⟩ := not_or.mp (mt List.mem_cons.mpr h)
      refine ⟨fun hpart => ?_, fun htext => ?_, ih hrest⟩
      · exact hne (List.cons_prefix_cons.mp hpart).1
      · exact hne (List.cons_prefix_cons.mp htext).1.symm

/-- What a part is apart from does not matter in front of a text. -/
theorem mentions_append (h : Apart part before) (text : List Char) :
    mentions (before ++ text) part = mentions text part := by
  induction before with
  | nil => rfl
  | cons c rest ih =>
      have hnot : part.isPrefixOf (c :: (rest ++ text)) = false := by
        refine Bool.eq_false_iff.mpr fun hpart => ?_
        have hstarts : c :: rest <+: c :: rest ++ text := List.prefix_append _ _
        rcases List.prefix_or_prefix_of_prefix (List.isPrefixOf_iff_prefix.mp hpart) hstarts with
          hfits | hbegins
        · exact h.1 hfits
        · exact h.2.1 hbegins
      rw [List.cons_append, mentions, hnot, Bool.false_or]
      exact ih h.2.2

/-! ## Headings -/

/-- Neither status text begins in the heading. -/
structure Neutral (heading : String) : Prop where
  closing : Apart closingStatus.toList heading.toList
  success : Apart successStatus.toList heading.toList

theorem neutral_success : Neutral "call returned a success status as error: " :=
  ⟨by decide, by decide⟩

theorem neutral_failed : Neutral "call failed: " :=
  ⟨by decide, by decide⟩

/-- The count has digits only, and neither status text begins with one. -/
theorem neutral_exhausted (attempts : UInt32) :
    Neutral ("retries exhausted after " ++ Nat.repr attempts.toNat ++ " attempts: ") := by
  have hdigits {c : Char} {part : List Char} (hc : c.isDigit = false) :
      Apart (c :: part) (Nat.repr attempts.toNat).toList := by
    refine apart_of_not_mem fun hmem => ?_
    rw [Nat.toList_repr] at hmem
    have hdigit := Nat.isDigit_of_mem_toDigits (by decide) (by decide) hmem
    exact Bool.false_ne_true (hc.symm.trans hdigit)
  constructor <;> rw [String.toList_append, String.toList_append]
  · exact apart_append (apart_append (by decide) (hdigits (by decide))) (by decide)
  · exact apart_append (apart_append (by decide) (hdigits (by decide))) (by decide)

/-! ## Reading again -/

/-- The kind that a status stands for, by what it mentions. -/
theorem kind_ofStatus (status : String) :
    (ofStatus status).kind =
      if mentions status.toList closingStatus.toList then .transportClosing
      else if mentions status.toList successStatus.toList then .successShaped
      else .failure := by
  unfold ofStatus
  split
  · rfl
  · split <;> rfl

/-- A neutral heading does not change what a status is read as. -/
theorem kind_ofStatus_append {heading : String} (h : Neutral heading) (status : String) :
    (ofStatus (heading ++ status)).kind = (ofStatus status).kind := by
  rw [kind_ofStatus, kind_ofStatus, String.toList_append, mentions_append h.closing,
    mentions_append h.success]

theorem kind_ofStatus_message (status : String) :
    (ofStatus (ofStatus status).message).kind = (ofStatus status).kind := by
  by_cases hclosing : mentions status.toList closingStatus.toList = true
  · have herror : ofStatus status = .transportClosing status := if_pos hclosing
    have hmessage : (transportClosing status).message = "transport is closing: " ++ status := rfl
    -- the heading is not neutral, but the status mentions a closing transport in its own right
    have hagain : mentions ("transport is closing: " ++ status).toList closingStatus.toList := by
      rw [String.toList_append, mentions_iff]
      exact (mentions_iff.mp hclosing).trans (List.suffix_append _ _).isInfix
    rw [herror, hmessage, kind_ofStatus, if_pos hagain, kind]
  by_cases hsuccess : mentions status.toList successStatus.toList = true
  · have herror : ofStatus status = .successShaped status := by
      rw [ofStatus, if_neg hclosing, if_pos hsuccess]
    have hmessage : (successShaped status).message =
        "call returned a success status as error: " ++ status := rfl
    rw [herror, hmessage, kind_ofStatus_append neutral_success, herror]
  · have herror : ofStatus status = .failed status := by
      rw [ofStatus, if_neg hclosing, if_neg hsuccess]
    have hmessage : (failed status).message = "call failed: " ++ status := rfl
    rw [herror, hmessage, kind_ofStatus_append neutral_failed, herror]

/-- An error that sessions gave up on one after the other, the last of them first. -/
def exhausted (attempts : List UInt32) (error : CallError) : CallError :=
  attempts.foldr .retriesExhausted error

@[simp] theorem kind_exhausted (attempts : List UInt32) (error : CallError) :
    (exhausted attempts error).kind = error.kind := by
  induction attempts with
  | nil => rfl
  | cons count rest ih => exact ih

/-- **Rendering keeps the kind.** An error that a status stands for, wrapped any number of times
with any counts, is read again from its own text as an error of the same kind: that of a closing
transport if the status mentions one, that of a success if it mentions that and not the other, and
that of a failure otherwise. -/
theorem rendered_kind (status : String) (attempts : List UInt32) :
    (ofStatus (exhausted attempts (ofStatus status)).message).kind = (ofStatus status).kind ∧
      (exhausted attempts (ofStatus status)).kind =
        if closingStatus.toList <:+: status.toList then .transportClosing
        else if successStatus.toList <:+: status.toList then .successShaped
        else .failure := by
  refine ⟨?_, by simp only [kind_exhausted, kind_ofStatus, mentions_iff]⟩
  induction attempts with
  | nil => exact kind_ofStatus_message status
  | cons count rest ih =>
      have hmessage : (exhausted (count :: rest) (ofStatus status)).message =
          "retries exhausted after " ++ Nat.repr count.toNat ++ " attempts: " ++
            (exhausted rest (ofStatus status)).message := rfl
      rw [hmessage, kind_ofStatus_append (neutral_exhausted count)]
      exact ih

end Dialer.CallError
