/-!
# Agendas

Tasks with the instants at which they are due, in the order of these instants; tasks due at
the same instant stand in the order in which they were added. `Agenda.due` is what has to be
done by an instant and `Agenda.later` what is left then: together they are the agenda
(`Agenda.due_append_later`).
-/

namespace Dialer

/-- Tasks and the instants at which they are due. -/
structure Agenda (α : Type) where
  entries : List (Nat × α)
deriving DecidableEq, Repr

namespace Agenda

variable {α : Type}

/-- Nothing to do. -/
def empty : Agenda α := ⟨[]⟩

/-- Puts a task behind all that is due no later. -/
def insert (due : Nat) (task : α) : List (Nat × α) → List (Nat × α)
  | [] => [(due, task)]
  | entry :: rest =>
    if entry.1 ≤ due then entry :: insert due task rest else (due, task) :: entry :: rest

/-- Adds a task. -/
def add (a : Agenda α) (due : Nat) (task : α) : Agenda α :=
  ⟨insert due task a.entries⟩

/-- What is due by an instant. -/
def due (a : Agenda α) (now : Nat) : List (Nat × α) :=
  a.entries.takeWhile (·.1 ≤ now)

/-- What is due after an instant. -/
def later (a : Agenda α) (now : Nat) : Agenda α :=
  ⟨a.entries.dropWhile (·.1 ≤ now)⟩

/-- The first instant after one and up to another at which something is due. -/
def next? (a : Agenda α) (now limit : Nat) : Option { t : Nat // now < t ∧ t ≤ limit } :=
  match a.entries.find? (fun entry => now < entry.1) with
  | some (t, _) => if h : now < t ∧ t ≤ limit then some ⟨t, h⟩ else none
  | none => none

theorem due_append_later (a : Agenda α) (now : Nat) :
    a.due now ++ (a.later now).entries = a.entries :=
  List.takeWhile_append_dropWhile

theorem due_of_mem_due {a : Agenda α} {now : Nat} {entry : Nat × α} (h : entry ∈ a.due now) :
    entry.1 ≤ now := by
  have := List.all_takeWhile (p := fun e : Nat × α => decide (e.1 ≤ now)) (l := a.entries)
  rw [List.all_eq_true] at this
  simpa using this entry h

theorem mem_insert {due : Nat} {task : α} {entry : Nat × α} {entries : List (Nat × α)} :
    entry ∈ insert due task entries ↔ entry = (due, task) ∨ entry ∈ entries := by
  induction entries with
  | nil => simp [insert]
  | cons e rest ih =>
    simp only [insert]
    split <;> simp [ih, or_left_comm]

end Agenda

end Dialer
