import Dialer.Proofs.Breaker.Trials

/-!
# No outcome is told twice, and which are told

A call that was let pass owes the breaker one outcome. Whatever raises, it is told at most once;
it is told when the call ends, unless the hook raised as the call was admitted or the classifier
raises (`Traffic.Strays`). What it is told counts if the generation of the call lasts, and is
ignored if it is over.

A trial that strays is used up: a half-open circuit that has lost all its trials rejects every call
from then on (`Stranded.rejects`).
-/

namespace Dialer

/-- By this event the breaker is told how the call of a number ended. -/
def Event.Tells (e : Event) (number : Nat) (success : Bool) : Prop :=
  (∃ outcome, e.act = .leave number outcome ∧ e.callbacks.verdict? outcome = some success) ∨
    e.act = .drop number ∧ success = false

namespace Traffic

open Breaker

variable {t : Traffic} {e : Event} {p : Pass} {success : Bool}

/-- A call is in flight, or settled once, or lost. -/
theorem Orderly.count_eq_one (h : Orderly t) (hp : p ∈ t.passes) :
    (t.settled.map (·.pass)).count p + t.afloat.count p + t.lost.count p = 1 := by
  have hone := List.count_eq_one_of_mem (List.Nodup.of_map _ h.number_nodup) hp
  rw [h.conserved.count_eq, List.count_append, List.count_append] at hone
  exact hone

/-- What the breaker is told by an event is recorded for the call that ends. -/
theorem step_of_tells (h : Orderly t) (hp : p ∈ t.afloat) (htells : e.Tells p.number success) :
    t.step e = (t.turn e.now).tell e.now p success
      (t.desk.record e.callbacks e.now p.generation success).1 := by
  have hcall := h.call?_number hp
  obtain ⟨outcome, hclosing, hverdict⟩ : ∃ outcome, t.closing? e = some (p, outcome) ∧
      e.callbacks.verdict? outcome = some success := by
    rcases htells with ⟨outcome, hact, hverdict⟩ | ⟨hact, rfl⟩
    · exact ⟨outcome, by simp [closing?, hact, hcall], hverdict⟩
    · exact ⟨.hangs, by simp [closing?, hact, hcall], rfl⟩
  rw [step_of_closing hclosing, hverdict]

theorem step_tells (h : Orderly t) (hp : p ∈ t.afloat) (htells : e.Tells p.number success) :
    ∃ d : Desk, (t.turn e.now).breaker.Told e.now p.generation success d.breaker ∧
      t.step e = (t.turn e.now).tell e.now p success d := by
  refine ⟨_, ?_, step_of_tells h hp htells⟩
  rw [Desk.record_breaker]
  exact record_told _ _ _ _ _

/-- The outcome of a call whose generation is the current one is counted, or ends the
generation. -/
theorem Balanced.heard_of_current (h : Balanced t) {now : Nat} {b' : Breaker} (hp : p ∈ t.passes)
    (hown : p.era = t.era) (htold : t.breaker.Told now p.generation success b') :
    t.breaker.state ≠ .opened ∧ t.breaker.Heard now success b' := by
  constructor
  · -- no call belongs to the generation of an open circuit
    intro hopened
    have hmem : p ∈ t.passesIn t.era := List.mem_filter.mpr ⟨hp, decide_eq_true hown⟩
    rw [h.passesIn_opened hopened] at hmem
    exact absurd hmem List.not_mem_nil
  · have hgen := (h.orderly.mem_passes p hp).2
    rw [hown, ← h.orderly.generation] at hgen
    exact htold.heard_of_eq hgen

/-- The trials of a half-open circuit that are used up. -/
theorem Balanced.requests_halfOpen (h : Balanced t) (hhalf : t.breaker.state = .halfOpen) :
    t.breaker.counts.requests =
      (t.outcomesIn t.era).length + (t.afloatIn t.era).length + (t.lostIn t.era).length := by
  rw [h.accounts.requests_halfOpen hhalf]
  exact h.orderly.length_passesIn t.era

/-- **Every outcome is told once, and heard while its generation lasts.** In every run, whatever
the callbacks and the calls do:

* a call that passed is in flight, or its outcome was told once, or it was lost;
* no call is lost but one at whose admission the hook raises, or whose classifier raises;
* when the breaker is told the outcome of a call, it is heard by the generation of the call if
  that is the current one, and ignored if the breaker has another generation by then;
* the trials of a half-open circuit that are used up are those with an outcome, those in
  flight, and those lost. -/
theorem outcomes_told (s : BreakerSettings) (start : Nat) (events : List Event) :
    let t := run s start events
    (∀ p ∈ t.passes, (t.settled.map (·.pass)).count p + t.afloat.count p + t.lost.count p = 1) ∧
      (∀ e, (t.step e).lost = t.lost ∨ ∃ p, (t.step e).lost = p :: t.lost ∧ Strays t e p) ∧
      (∀ p ∈ t.afloat, ∀ (e : Event) success, e.Tells p.number success →
        let before := t.turn e.now
        (t.step e).settled = ⟨p, success, before.era⟩ :: t.settled ∧
          (p.era = before.era → before.breaker.state ≠ .opened ∧
            before.breaker.Heard e.now success (t.step e).breaker) ∧
          (p.generation ≠ before.breaker.generation →
            (t.step e).breaker = before.breaker)) ∧
      (t.breaker.state = .halfOpen → t.breaker.counts.requests =
        (t.outcomesIn t.era).length + (t.afloatIn t.era).length + (t.lostIn t.era).length) := by
  have hbalanced := balanced_run s start events
  generalize run s start events = t at hbalanced ⊢
  refine ⟨fun p hp => hbalanced.orderly.count_eq_one hp, step_lost t, ?_,
    hbalanced.requests_halfOpen⟩
  intro p hp e success htells
  obtain ⟨d, htold, hstep⟩ := step_tells hbalanced.orderly hp htells
  rw [hstep]
  refine ⟨rfl, ?_, ?_⟩
  · intro hown
    exact (hbalanced.turn e.now).heard_of_current (hbalanced.orderly.mem_of_afloat hp) hown htold
  · intro hother
    exact htold.eq_of_ne hother

/-! ## Trials that are lost -/

/-- All trials of a half-open period are lost. -/
structure Stranded (s : BreakerSettings) (t : Traffic) : Prop where
  balanced : Balanced t
  moved : Moved s t
  few : t.era < UInt64.size
  state : t.breaker.state = .halfOpen
  lost : s.trials ≤ (t.lostIn t.era).length

variable {s : BreakerSettings}

/-- No trial has an outcome, none is in flight, and none is left. -/
theorem Stranded.passesIn_afloatIn (h : Stranded s t) :
    (t.passesIn t.era).length = s.trials ∧ t.afloatIn t.era = [] := by
  have hpasses := h.balanced.orderly.length_passesIn t.era
  have hle := (h.balanced.accounts.halfOpen h.state).2.2
  have hlost := h.lost
  rw [h.moved.settings] at hle
  exact ⟨by omega, List.length_eq_zero_iff.mp (by omega)⟩

/-- There is no call whose outcome could end the period. -/
theorem Stranded.step (h : Stranded s t) (e : Event) : Stranded s (t.step e) := by
  have hlost : t.lostIn t.era <:+ (t.step e).lostIn t.era := by
    unfold lostIn
    rcases step_lost t e with hsame | ⟨p, hmore, -⟩
    · exact hsame ▸ List.suffix_rfl
    · rw [hmore]
      exact (List.suffix_cons p t.lost).filter _
  cases h.balanced.step_trial h.few h.state e with
  | goes hstate hera =>
      refine ⟨balanced_kept.step t e h.balanced, (moved_kept s).step t e h.moved, hera ▸ h.few,
        hstate, ?_⟩
      rw [hera]
      exact Nat.le_trans h.lost hlost.length_le
  | ends p success hp hown _ _ _ _ =>
      have hmem : p ∈ t.afloatIn t.era := List.mem_filter.mpr ⟨hp, decide_eq_true hown⟩
      rw [h.passesIn_afloatIn.2] at hmem
      exact absurd hmem List.not_mem_nil

theorem Stranded.after (h : Stranded s t) (events : List Event) : Stranded s (t.after events) := by
  induction events generalizing t with
  | nil => exact h
  | cons e rest ih => exact ih (h.step e)

/-- **Lost trials are used up for good.** A half-open circuit that has lost all its trials stays
half-open and answers every call that there are too many, whatever happens. -/
theorem Stranded.rejects (h : Stranded s t) (events : List Event) (cb : BreakerCallbacks)
    (now : Nat) : ((t.after events).breaker.state = .halfOpen) ∧
      ((t.after events).desk.enter cb now).2 = .rejected (.tooManyRequests s.name) := by
  have hafter := h.after events
  have hsettings := hafter.moved.settings
  refine ⟨hafter.state, ?_⟩
  rw [enter_of_halfOpen hafter.state, hafter.balanced.check_halfOpen hafter.state, hsettings,
    if_pos hafter.passesIn_afloatIn.1]

/-- A circuit with one trial that opens for a second. -/
def oneTrial : BreakerSettings :=
  { twoTrials with maxHalfOpen := 1 }

/-- The hook raises as the only trial is admitted. -/
def startled : List Event :=
  [.plain 0 .enter, .plain 1 (.leave 0 .raises),
    { Event.plain 2_000_000_000 .enter with
      callbacks := { (Event.plain 0 .enter).callbacks with hook := some fun _ => .raised } }]

/-- The classifier raises as the only trial ends. -/
def baffled : List Event :=
  [.plain 0 .enter, .plain 1 (.leave 0 .raises), .plain 2_000_000_000 .enter,
    { Event.plain 3_000_000_000 (.leave 1 (.returns (.ok ""))) with
      callbacks := { (Event.plain 0 .enter).callbacks with succeeds := fun _ => .raised } }]

/-- These events leave a circuit half-open without the outcome of its trial, and no call passes ever
after. -/
def Strand (events : List Event) : Prop :=
  let t := run oneTrial 0 events
  (∃ p ∈ t.passes, p.era = t.era ∧ p ∉ t.afloat ∧ p ∉ t.settled.map (·.pass)) ∧
    ∀ (later : List Event) (cb : BreakerCallbacks) (now : Nat),
      (t.after later).breaker.state = .halfOpen ∧
        ((t.after later).desk.enter cb now).2 = .rejected (.tooManyRequests "trials")

theorem strand_of_lost {events : List Event} (hfew : (run oneTrial 0 events).era < UInt64.size)
    (hhalf : (run oneTrial 0 events).breaker.state = .halfOpen)
    (hlost : 1 ≤ ((run oneTrial 0 events).lostIn (run oneTrial 0 events).era).length)
    (hmissing : ∃ p ∈ (run oneTrial 0 events).passes, p.era = (run oneTrial 0 events).era ∧
      p ∉ (run oneTrial 0 events).afloat ∧ p ∉ (run oneTrial 0 events).settled.map (·.pass)) :
    Strand events := by
  have hstranded : Stranded oneTrial (run oneTrial 0 events) :=
    ⟨balanced_run _ _ _, moved_run _ _ _, hfew, hhalf, hlost⟩
  exact ⟨hmissing, hstranded.rejects⟩

/-- A hook that raises as a trial is admitted, or a classifier that raises as it ends, leaves the
breaker without the outcome. The circuit stays half-open then, and rejects every call. -/
theorem raising_callback_strands : Strand startled ∧ Strand baffled := by
  constructor
  · exact strand_of_lost (by decide) (by decide) (by decide) ⟨⟨1, 2, 2, 2_000_000_000⟩, by decide⟩
  · exact strand_of_lost (by decide) (by decide) (by decide) ⟨⟨1, 2, 2, 2_000_000_000⟩, by decide⟩

end Traffic

end Dialer
