import Dialer.Agenda

/-!
# Agendas in order

Tasks are added to an agenda in the order of their instants, so whatever is on it for an instant
that has come is among what is due.
-/

namespace Dialer.Agenda

variable {α : Type}

/-- The instants never go back. -/
def Sorted (a : Agenda α) : Prop :=
  a.entries.Pairwise fun first second => first.1 ≤ second.1

theorem sorted_empty : (empty : Agenda α).Sorted :=
  List.Pairwise.nil

theorem sorted_add {a : Agenda α} (h : a.Sorted) (due : Nat) (task : α) :
    (a.add due task).Sorted := by
  obtain ⟨entries⟩ := a
  unfold Sorted add at *
  dsimp only at *
  induction entries with
  | nil => exact List.pairwise_singleton _ _
  | cons e rest ih =>
      obtain ⟨hfirst, hrest⟩ := List.pairwise_cons.mp h
      unfold insert
      split
      · rename_i hbefore
        refine List.pairwise_cons.mpr ⟨?_, ih hrest⟩
        intro entry hentry
        rcases mem_insert.mp hentry with rfl | hold
        · exact hbefore
        · exact hfirst entry hold
      · rename_i hbehind
        refine List.pairwise_cons.mpr ⟨?_, h⟩
        intro entry hentry
        show due ≤ entry.1
        rcases List.mem_cons.mp hentry with rfl | hold
        · omega
        · have := hfirst entry hold
          omega

theorem sorted_later {a : Agenda α} (h : a.Sorted) (now : Nat) : (a.later now).Sorted :=
  List.Pairwise.sublist (List.dropWhile_sublist _) h

/-- Tasks were added to an agenda, in their order. -/
structure Grows (a b : Agenda α) : Prop where
  sorted : a.Sorted → b.Sorted
  kept : ∀ entry ∈ a.entries, entry ∈ b.entries

theorem Grows.refl (a : Agenda α) : a.Grows a :=
  ⟨id, fun _ h => h⟩

theorem Grows.trans {a b c : Agenda α} (h : a.Grows b) (h' : b.Grows c) : a.Grows c where
  sorted := fun hsorted => h'.sorted (h.sorted hsorted)
  kept := fun entry hentry => h'.kept entry (h.kept entry hentry)

theorem grows_add (a : Agenda α) (due : Nat) (task : α) : a.Grows (a.add due task) :=
  ⟨fun h => sorted_add h due task, fun _ hentry => mem_insert.mpr (.inr hentry)⟩

/-- What is on an agenda for an instant that has come is due. -/
theorem mem_due {a : Agenda α} (h : a.Sorted) {entry : Nat × α} (hentry : entry ∈ a.entries)
    {now : Nat} (hnow : entry.1 ≤ now) : entry ∈ a.due now := by
  obtain ⟨entries⟩ := a
  unfold Sorted due at *
  dsimp only at *
  induction entries with
  | nil => cases hentry
  | cons e rest ih =>
      obtain ⟨hfirst, hrest⟩ := List.pairwise_cons.mp h
      have he : e.1 ≤ now := by
        rcases List.mem_cons.mp hentry with rfl | hold
        · exact hnow
        · exact Nat.le_trans (hfirst entry hold) hnow
      rw [List.takeWhile_cons_of_pos (by simpa using he)]
      rcases List.mem_cons.mp hentry with rfl | hold
      · exact List.mem_cons_self
      · exact List.mem_cons_of_mem _ (ih hrest hold)

/-- Nothing on an agenda comes before what is next. -/
theorem next?_first {a : Agenda α} (h : a.Sorted) {now limit : Nat} {entry : Nat × α}
    (hentry : entry ∈ a.entries) (hlater : now < entry.1) :
    (∀ t ∈ a.next? now limit, t.val ≤ entry.1) ∧ (a.next? now limit = none → limit < entry.1) := by
  unfold next?
  cases hfound : a.entries.find? fun entry => now < entry.1 with
  | none => exact absurd (decide_eq_true hlater) (List.find?_eq_none.mp hfound entry hentry)
  | some first =>
      obtain ⟨hfirst, before, behind, hsplit, hbefore⟩ := List.find?_eq_some_iff_append.mp hfound
      have hle : first.1 ≤ entry.1 := by
        rw [hsplit] at hentry
        rcases List.mem_append.mp hentry with hearly | hrest
        · have hnot := hbefore entry hearly
          simp only [Bool.not_eq_true', decide_eq_false_iff_not] at hnot
          exact absurd hlater hnot
        · unfold Sorted at h
          rw [hsplit] at h
          obtain ⟨-, hsorted, -⟩ := List.pairwise_append.mp h
          rcases List.mem_cons.mp hrest with rfl | hbehind
          · exact Nat.le_refl _
          · exact (List.pairwise_cons.mp hsorted).1 entry hbehind
      have hnow : now < first.1 := of_decide_eq_true hfirst
      dsimp only
      split
      · refine ⟨fun t ht => ?_, fun hnone => by cases hnone⟩
        obtain rfl := Option.some.inj ht
        exact hle
      · refine ⟨fun t ht => (by cases ht), fun _ => ?_⟩
        omega

end Dialer.Agenda
