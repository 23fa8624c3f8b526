import Dialer.Duration.Fraction
import Dialer.Proofs.Breaker.Ledger

/-!
# The state and the changes on record

The changes on record follow the state diagram, and the latest of them accounts for the
state a circuit is in: it began the current generation, unless the circuit is closed, and fixed
the end of an open period, if that is an instant (`Moved.begun`).
-/

namespace Dialer.Traffic

open Breaker

/-- The changes on record explain the state. -/
structure Moved (s : BreakerSettings) (t : Traffic) : Prop where
  settings : t.breaker.settings = s
  diagram : ∀ m ∈ t.moves, Leads m.change.source m.change.target
  /-- A change began a generation that is over, or the current one. -/
  target : ∀ m ∈ t.moves, m.era ≤ t.era ∧ (m.era = t.era → m.change.target = t.breaker.state)
  begun : t.breaker.state ≠ .closed → ∃ m rest, t.moves = m :: rest ∧
    m.change.target = t.breaker.state ∧ m.era = t.era ∧
    (t.breaker.state = .opened →
      ∀ due ∈ Clock.instant? m.time s.openDuration, t.breaker.expiry = some due)

variable {s : BreakerSettings} {t : Traffic}

theorem Moved.begun_of_state (h : Moved s t) {state : CircuitState}
    (hstate : t.breaker.state = state) (hother : state ≠ .closed) :
    ∃ m rest, t.moves = m :: rest ∧ m.change.target = state ∧ m.era = t.era ∧
      (state = .opened →
        ∀ due ∈ Clock.instant? m.time s.openDuration, t.breaker.expiry = some due) := by
  subst hstate
  exact h.begun hother

theorem moved_start (s : BreakerSettings) (now : Nat) : Moved s (start s now) where
  settings := rfl
  diagram := by intro m hm; exact absurd hm List.not_mem_nil
  target := by intro m hm; exact absurd hm List.not_mem_nil
  begun hstate := absurd rfl hstate

/-- An operation of the desk that begins no generation changes nothing about this. -/
theorem Moved.goes (h : Moved s t) {d : Desk} (hd : Goes t.breaker d.breaker) :
    Moved s { t with desk := d } where
  settings := hd.settings.trans h.settings
  diagram := h.diagram
  target := by
    intro m hm
    show m.era ≤ t.era ∧ (m.era = t.era → m.change.target = d.breaker.state)
    rw [hd.state]
    exact h.target m hm
  begun := by
    show d.breaker.state ≠ .closed → ∃ m rest, t.moves = m :: rest ∧
      m.change.target = d.breaker.state ∧ m.era = t.era ∧
      (d.breaker.state = .opened →
        ∀ due ∈ Clock.instant? m.time s.openDuration, d.breaker.expiry = some due)
    rw [hd.state, hd.expiry]
    exact h.begun

/-- The end of a rolling window begins a generation in the state there was. -/
theorem Moved.renew (h : Moved s t) {now : Nat} {d : Desk} (hstate : t.breaker.state = .closed)
    (hd : d.breaker = t.breaker.enter .closed now) : Moved s (t.carry now d) := by
  rw [carry_enter hd, if_pos hstate.symm]
  refine ⟨?_, h.diagram, ?_, ?_⟩
  · show d.breaker.settings = s
    rw [hd]
    exact h.settings
  · intro m hm
    have hle := (h.target m hm).1
    refine ⟨Nat.le_succ_of_le hle, ?_⟩
    intro (heq : m.era = t.era + 1)
    omega
  · intro hopen
    refine absurd ?_ hopen
    show d.breaker.state = .closed
    rw [hd, enter_state]

theorem Moved.change (h : Moved s t) {state : CircuitState} {now : Nat} {d : Desk}
    (hleads : Leads t.breaker.state state) (hother : state ≠ t.breaker.state)
    (hd : d.breaker = t.breaker.enter state now) : Moved s (t.carry now d) := by
  rw [carry_enter hd, if_neg hother]
  refine ⟨?_, ?_, ?_, ?_⟩
  · show d.breaker.settings = s
    rw [hd]
    exact h.settings
  · intro m hm
    rcases List.mem_cons.mp hm with rfl | hold
    · exact hleads
    · exact h.diagram m hold
  · intro m hm
    show m.era ≤ t.era + 1 ∧ (m.era = t.era + 1 → m.change.target = d.breaker.state)
    rw [hd, enter_state]
    rcases List.mem_cons.mp hm with rfl | hold
    · exact ⟨Nat.le_refl _, fun _ => rfl⟩
    · have hle := (h.target m hold).1
      refine ⟨Nat.le_succ_of_le hle, ?_⟩
      intro heq
      omega
  · intro _
    refine ⟨_, _, rfl, ?_, rfl, ?_⟩
    · show state = d.breaker.state
      rw [hd, enter_state]
    · show d.breaker.state = .opened →
        ∀ due ∈ Clock.instant? now s.openDuration, d.breaker.expiry = some due
      rw [hd, enter_state]
      rintro rfl due hdue
      rw [enter_opened_expiry, h.settings, Option.mem_def.mp hdue]
      rfl

theorem Moved.carry (h : Moved s t) {now : Nat} {d : Desk}
    (hd : GoesOrEnters now t.breaker d.breaker) : Moved s (t.carry now d) := by
  rcases hd with hgoes | ⟨state, hleads, henter⟩
  · rw [carry_same hgoes.generation hgoes.state]
    exact h.goes hgoes
  · by_cases hsame : state = t.breaker.state
    · rw [hsame] at hleads henter
      have hclosed := hleads.eq_closed
      rw [hclosed] at henter
      exact h.renew hclosed henter
    · exact h.change hleads hsame henter

/-- Which calls are in flight, settled or lost does not matter to it. -/
theorem Moved.settle (h : Moved s t) (p : Pass) (success : Bool) :
    Moved s (t.settle p success) :=
  { h with }

theorem moved_kept (s : BreakerSettings) : Kept (Moved s) where
  turn t now h := h.carry (refresh_cases t.breaker now).goesOrEnters
  aside _ _ hd h := h.goes (.of_eq hd)
  board _ _ _ _ _ hd h := { h.goes (.of_counts hd) with }
  tell _ _ p success _ _ hd h := (h.settle p success).carry hd.goesOrEnters
  lose _ _ _ h := { h with }

theorem moved_run (s : BreakerSettings) (start : Nat) (events : List Event) :
    Moved s (run s start events) :=
  (moved_kept s).run (moved_start s start) events

/-- A circuit that opens for the longest span there is, which leads to no instant. -/
def unending : BreakerSettings :=
  ⟨"unending", 1, .zero, .longest⟩

end Dialer.Traffic
