import Dialer.Proofs.Breaker.Ledger
import Dialer.Proofs.Breaker.Tally

/-!
# The counters balance

In every state of every run the five counters are the tally of the current generation: of the
calls that passed in it, and of the outcomes the breaker has heard for it.

* `Breaker.Accounts` — what the counters show, and what a half-open and an open circuit can
  have on record at all; kept by every way of counting;
* `Traffic.Balanced` — the same of a run, with the numbers taken from the record;
* `Traffic.counts_account` — while there have been fewer than `2 ^ 64` generations, the outcomes
  heard are those of the calls of this generation and no others.
-/

namespace Dialer

namespace BreakerSettings

theorem one_le_trials (s : BreakerSettings) : 1 ≤ s.trials :=
  Nat.le_max_left _ _

/-- A counter can count all the trials. -/
theorem trials_le_ceiling (s : BreakerSettings) : s.trials ≤ Counts.ceiling := by
  have hlt := s.maxHalfOpen.toNat_lt
  unfold trials Counts.ceiling UInt32.size
  omega

end BreakerSettings

namespace Breaker

/-- The counters against the requests and outcomes of the generation. -/
structure Accounts (b : Breaker) (requests : Nat) (outcomes : List Bool) : Prop where
  /-- An open circuit that hears a failure does not count it. -/
  counts : b.state ≠ .opened ∨ outcomes = [] → b.counts = .tally requests outcomes
  halfOpen : b.state = .halfOpen →
    false ∉ outcomes ∧ outcomes.length < b.settings.trials ∧ requests ≤ b.settings.trials
  opened : b.state = .opened → requests = 0

variable {b : Breaker} {n : Nat} {outcomes : List Bool}

theorem accounts_enter (b : Breaker) (state : CircuitState) (now : Nat) :
    Accounts (b.enter state now) 0 [] where
  counts _ := rfl
  halfOpen _ := ⟨List.not_mem_nil, b.settings.one_le_trials, Nat.zero_le _⟩
  opened _ := rfl

/-- A circuit that is not open shows all it has heard. -/
theorem Accounts.counts_eq (h : Accounts b n outcomes) {state : CircuitState}
    (hstate : b.state = state) (hopen : state ≠ .opened) : b.counts = .tally n outcomes :=
  h.counts (.inl (hstate ▸ hopen))

/-- The counters of a half-open circuit are below their ceiling. -/
theorem Accounts.requests_halfOpen (h : Accounts b n outcomes) (hhalf : b.state = .halfOpen) :
    b.counts.requests = n := by
  rw [h.counts_eq hhalf (by decide)]
  exact Counts.clamp_of_le
    (Nat.le_trans (h.halfOpen hhalf).2.2 b.settings.trials_le_ceiling)

/-- One more success in a half-open circuit makes the run as long as the list. -/
theorem Accounts.successRun_halfOpen (h : Accounts b n outcomes) (hhalf : b.state = .halfOpen) :
    b.counts.success.successRun = outcomes.length + 1 := by
  obtain ⟨hnone, hlen, _⟩ := h.halfOpen hhalf
  have hnone' : false ∉ true :: outcomes := by simpa using hnone
  rw [h.counts_eq hhalf (by decide), Counts.success_tally]
  show Counts.clamp (Counts.headRun true (true :: outcomes)) = _
  rw [Counts.headRun_of_no_failure hnone', List.length_cons]
  exact Counts.clamp_of_le (Nat.le_trans hlen b.settings.trials_le_ceiling)

theorem Accounts.request (h : Accounts b n outcomes) {generation : UInt64}
    (hcheck : b.check = .admitted generation) :
    Accounts { b with counts := b.counts.request } (n + 1) outcomes := by
  rcases (check_eq_admitted.mp hcheck).2 with hclosed | ⟨hhalf, hleft⟩
  · refine ⟨fun _ => ?_, fun hhalf => ?_, fun hopened => ?_⟩
    · show b.counts.request = _
      rw [h.counts_eq hclosed (by decide), Counts.request_tally]
    · exact absurd (hclosed.symm.trans hhalf) (by decide)
    · exact absurd (hclosed.symm.trans hopened) (by decide)
  · obtain ⟨hnone, hlen, _⟩ := h.halfOpen hhalf
    refine ⟨fun _ => ?_, fun _ => ?_, fun hopened => ?_⟩
    · show b.counts.request = _
      rw [h.counts_eq hhalf (by decide), Counts.request_tally]
    · -- a half-open circuit lets a call pass only if a trial is left
      rw [h.requests_halfOpen hhalf] at hleft
      exact ⟨hnone, hlen, hleft⟩
    · exact absurd (hhalf.symm.trans hopened) (by decide)

/-- A half-open circuit that a success leaves so wants more of them. -/
theorem Accounts.success (h : Accounts b n outcomes)
    (hmore : b.state = .halfOpen → b.counts.success.successRun < b.settings.trials) :
    Accounts { b with counts := b.counts.success } n (true :: outcomes) := by
  refine ⟨fun hsome => ?_, fun hhalf => ?_, h.opened⟩
  · have hopen : b.state ≠ .opened := hsome.resolve_right (List.cons_ne_nil _ _)
    show b.counts.success = _
    rw [h.counts (.inl hopen), Counts.success_tally]
  · obtain ⟨hnone, _, hreq⟩ := h.halfOpen hhalf
    have hrun := hmore hhalf
    rw [h.successRun_halfOpen hhalf] at hrun
    exact ⟨by simpa using hnone, hrun, hreq⟩

/-- The success that closes a half-open circuit is the last one it wants. -/
theorem Accounts.closes (h : Accounts b n outcomes) (hhalf : b.state = .halfOpen)
    (hlast : b.settings.trials ≤ b.counts.success.successRun) :
    outcomes.length + 1 = b.settings.trials := by
  rw [h.successRun_halfOpen hhalf] at hlast
  exact Nat.le_antisymm (h.halfOpen hhalf).2.1 hlast

theorem Accounts.failure (h : Accounts b n outcomes) (hstate : b.state = .closed) :
    Accounts { b with counts := b.counts.failure } n (false :: outcomes) := by
  refine ⟨fun _ => ?_, fun hhalf => ?_, h.opened⟩
  · show b.counts.failure = _
    rw [h.counts_eq hstate (by decide), Counts.failure_tally]
  · exact absurd (hstate.symm.trans hhalf) (by decide)

theorem Accounts.unmoved (h : Accounts b n outcomes) (hstate : b.state = .opened) :
    Accounts b n (false :: outcomes) where
  counts hsome := absurd hstate (hsome.resolve_right (List.cons_ne_nil _ _))
  halfOpen hhalf := absurd (hstate.symm.trans hhalf) (by decide)
  opened := h.opened

/-- An outcome that is heard is added to the tally, or ends the generation. -/
theorem Accounts.heard (h : Accounts b n outcomes) {now : Nat} {success : Bool} {b' : Breaker}
    (hears : Heard b now success b') :
    Goes b b' ∧ Accounts b' n (success :: outcomes) ∨ ∃ state, b' = b.enter state now := by
  cases hears with
  | success hmore => exact .inl ⟨.of_counts rfl, h.success hmore⟩
  | closes _ _ => exact .inr ⟨_, rfl⟩
  | failure hstate => exact .inl ⟨.of_counts rfl, h.failure hstate⟩
  | trips _ => exact .inr ⟨_, rfl⟩
  | reopens _ => exact .inr ⟨_, rfl⟩
  | unmoved hstate => exact .inl ⟨.refl b, h.unmoved hstate⟩

end Breaker

/-! ## Along a run -/

namespace Traffic

open Breaker

/-- The outcomes the breaker has heard for a generation, the latest first. -/
def heardIn (t : Traffic) (era : Nat) : List Bool :=
  (t.settled.filter fun r => r.era = era ∧ r.pass.generation = .ofNat era).map (·.success)

/-- The counters show what is on record for the current generation. -/
structure Balanced (t : Traffic) : Prop where
  orderly : Orderly t
  accounts : t.breaker.Accounts (t.passesIn t.era).length (t.heardIn t.era)

variable {t : Traffic}

theorem Orderly.heardIn_future (h : Orderly t) {era : Nat} (hera : t.era < era) :
    t.heardIn era = [] := by
  refine List.map_eq_nil_iff.mpr (List.filter_eq_nil_iff.mpr ?_)
  intro r hr heq
  have hle := (h.settled_le r hr).2
  rw [(of_decide_eq_true heq).1] at hle
  exact absurd hle (Nat.not_le.mpr hera)

/-- A generation begins with nothing on record. -/
theorem Orderly.balanced_enter (h : Orderly t) {state : CircuitState} {now : Nat} {d : Desk}
    (hd : d.breaker = t.breaker.enter state now) : Balanced (t.carry now d) := by
  refine ⟨h.enter hd, ?_⟩
  rw [carry_enter hd]
  show d.breaker.Accounts (t.passesIn (t.era + 1)).length (t.heardIn (t.era + 1))
  rw [h.passesIn_future (Nat.lt_succ_self _), h.heardIn_future (Nat.lt_succ_self _), hd]
  exact accounts_enter _ _ _

theorem Orderly.balanced_goes (h : Orderly t) {now : Nat} {d : Desk}
    (hd : Goes t.breaker d.breaker)
    (haccounts : d.breaker.Accounts (t.passesIn t.era).length (t.heardIn t.era)) :
    Balanced (t.carry now d) := by
  rw [carry_same hd.generation hd.state]
  exact ⟨h.goes hd, haccounts⟩

theorem balanced_start (s : BreakerSettings) (now : Nat) : Balanced (start s now) where
  orderly := orderly_start s now
  accounts :=
    { counts := fun _ => rfl
      halfOpen := fun hhalf => absurd hhalf (show CircuitState.closed ≠ .halfOpen by decide)
      opened := fun _ => rfl }

theorem Balanced.turn (h : Balanced t) (now : Nat) : Balanced (t.turn now) := by
  have hrefreshed := refresh_cases t.breaker now
  unfold Traffic.turn
  generalize t.breaker.refresh now = r at hrefreshed ⊢
  obtain ⟨b, made⟩ := r
  cases hrefreshed with
  | current _ => exact h.orderly.balanced_goes (.refl _) h.accounts
  | window _ _ => exact h.orderly.balanced_enter rfl
  | trial _ _ => exact h.orderly.balanced_enter rfl

theorem Balanced.aside (h : Balanced t) {d : Desk} (hd : d.breaker = t.breaker) :
    Balanced { t with desk := d } := by
  refine ⟨h.orderly.goes (.of_eq hd), ?_⟩
  show d.breaker.Accounts _ _
  rw [hd]
  exact h.accounts

theorem Balanced.board (h : Balanced t) {now : Nat} {generation : UInt64} {d : Desk}
    (hcheck : t.breaker.check = .admitted generation)
    (hd : d.breaker = { t.breaker with counts := t.breaker.counts.request }) :
    Balanced (t.board now generation d) := by
  refine ⟨h.orderly.board (check_eq_admitted.mp hcheck).1 (.of_counts hd), ?_⟩
  have hpasses : ((t.board now generation d).passesIn t.era).length =
      (t.passesIn t.era).length + 1 := by
    simp [passesIn, Traffic.board, nextPass]
  show d.breaker.Accounts ((t.board now generation d).passesIn t.era).length (t.heardIn t.era)
  rw [hd, hpasses]
  exact h.accounts.request hcheck

/-- An outcome is on record as heard if it came in for the current generation. -/
theorem heardIn_settle (t : Traffic) (p : Pass) (success : Bool) :
    (t.settle p success).heardIn t.era =
      if p.generation = .ofNat t.era then success :: t.heardIn t.era else t.heardIn t.era := by
  unfold heardIn settle
  by_cases hheard : p.generation = .ofNat t.era
  · simp [hheard]
  · simp [hheard]

theorem Balanced.tell (h : Balanced t) {now : Nat} {p : Pass} {success : Bool} {d : Desk}
    (hp : p ∈ t.afloat) (hd : t.breaker.Told now p.generation success d.breaker) :
    Balanced (t.tell now p success d) := by
  have horderly := h.orderly.settle success hp
  have hgeneration := h.orderly.generation
  have haccounts := h.accounts
  unfold Traffic.tell
  generalize hb : d.breaker = b at hd
  cases hd with
  | stale hstale =>
      -- neither the breaker nor what it has heard changes
      refine horderly.balanced_goes (.of_eq hb) ?_
      show d.breaker.Accounts (t.passesIn t.era).length ((t.settle p success).heardIn t.era)
      rw [heardIn_settle, if_neg (hgeneration ▸ hstale), hb]
      exact haccounts
  | heard hcurrent hears =>
      rcases haccounts.heard hears with ⟨hgoes, hnext⟩ | ⟨state, henter⟩
      · refine horderly.balanced_goes (hb ▸ hgoes) ?_
        show d.breaker.Accounts (t.passesIn t.era).length ((t.settle p success).heardIn t.era)
        rw [heardIn_settle, if_pos (hcurrent.trans hgeneration), hb]
        exact hnext
      · exact horderly.balanced_enter (hb.trans henter)

theorem balanced_kept : Kept Balanced where
  turn _ now h := h.turn now
  aside _ _ hd h := h.aside hd
  board _ _ _ _ hcheck hd h := h.board hcheck hd
  tell _ _ _ _ _ hp hd h := h.tell hp hd
  lose _ _ hp h := ⟨h.orderly.lose hp, h.accounts⟩

/-- In every run the counters show what is on record for the current generation. -/
theorem balanced_run (s : BreakerSettings) (start : Nat) (events : List Event) :
    Balanced (run s start events) :=
  balanced_kept.run (balanced_start s start) events

/-! ## The calls of a generation and their outcomes -/

/-- What the breaker hears for the current generation are the outcomes of its own calls. -/
theorem Orderly.heardIn_eq (h : Orderly t) (hfew : t.era < UInt64.size) :
    t.heardIn t.era = t.outcomesIn t.era := by
  unfold heardIn outcomesIn
  congr 1
  refine List.filter_congr ?_
  intro r hr
  obtain ⟨hpass, hera⟩ := h.settled_le r hr
  have hgen := h.generation_eq_iff hfew (h.mem_of_settled hr)
  rw [h.generation] at hgen
  rw [decide_eq_decide, hgen]
  -- an outcome of this generation cannot have come in before it began, nor after now
  constructor
  · rintro ⟨_, hown⟩
    exact hown
  · intro hown
    exact ⟨Nat.le_antisymm hera (hown ▸ hpass), hown⟩

/-- An open circuit has let no call pass. -/
theorem Balanced.passesIn_opened (h : Balanced t) (hopened : t.breaker.state = .opened) :
    t.passesIn t.era = [] :=
  List.length_eq_zero_iff.mp (h.accounts.opened hopened)

theorem Orderly.of_passesIn_nil (h : Orderly t) {era : Nat} (hnone : t.passesIn era = []) :
    t.outcomesIn era = [] ∧ t.afloatIn era = [] ∧ t.lostIn era = [] := by
  have hlen := h.length_passesIn era
  rw [hnone, List.length_nil] at hlen
  refine ⟨List.length_eq_zero_iff.mp ?_, List.length_eq_zero_iff.mp ?_,
    List.length_eq_zero_iff.mp ?_⟩ <;> omega

/-- A circuit that is open at an instant has no call of its generation in flight: no outcome
of the current generation can come in. -/
theorem Balanced.generation_ne_of_opened (h : Balanced t) (hfew : t.era < UInt64.size) {p : Pass}
    (hp : p ∈ t.afloat) {now : Nat} (hopened : (t.turn now).breaker.state = .opened) :
    p.generation ≠ (t.turn now).breaker.generation := by
  have hrefreshed := refresh_cases t.breaker now
  rw [turn_breaker] at hopened ⊢
  generalize t.breaker.refresh now = r at hrefreshed hopened ⊢
  obtain ⟨b, made⟩ := r
  cases hrefreshed with
  | window _ _ => exact absurd hopened (show CircuitState.closed ≠ .opened by decide)
  | trial _ _ => exact absurd hopened (show CircuitState.halfOpen ≠ .opened by decide)
  | current _ =>
      intro hgen
      have hown := (h.orderly.generation_eq_iff hfew (h.orderly.mem_of_afloat hp)).mp hgen
      have hmem : p ∈ t.afloatIn t.era := List.mem_filter.mpr ⟨hp, decide_eq_true hown⟩
      rw [(h.orderly.of_passesIn_nil (h.passesIn_opened hopened)).2.1] at hmem
      exact absurd hmem List.not_mem_nil

/-- **The counters account for the calls.** After any run, the counters are the tally of the
outcomes recorded for the calls of the current generation, where the requests are these, those
in flight, and those lost to a hook or a classifier that raised. A half-open circuit has no
failure on record, and an open one has nothing on record at all, so that no outcome it is told
is one of its generation. -/
theorem counts_account (s : BreakerSettings) (start : Nat) (events : List Event)
    (hfew : (run s start events).era < UInt64.size) :
    let t := run s start events
    let outcomes := t.outcomesIn t.era
    t.breaker.counts =
        .tally (outcomes.length + (t.afloatIn t.era).length + (t.lostIn t.era).length) outcomes ∧
      ((∀ e ∈ events, e.Calm) → t.lostIn t.era = []) ∧
      (t.breaker.state = .halfOpen → false ∉ outcomes) ∧
      (t.breaker.state = .opened →
        outcomes = [] ∧ t.afloatIn t.era = [] ∧ t.breaker.counts = .zero) ∧
      ∀ p ∈ t.afloat, ∀ now, (t.turn now).breaker.state = .opened →
        p.generation ≠ (t.turn now).breaker.generation := by
  have hbalanced := balanced_run s start events
  have hlost : (∀ e ∈ events, e.Calm) → (run s start events).lost = [] := run_lost s start
  generalize run s start events = t at hfew hbalanced hlost ⊢
  have haccounts := hbalanced.accounts
  rw [hbalanced.orderly.heardIn_eq hfew] at haccounts
  have hopened (hstate : t.breaker.state = .opened) :=
    hbalanced.orderly.of_passesIn_nil (hbalanced.passesIn_opened hstate)
  have hcounts : t.breaker.counts = .tally (t.passesIn t.era).length (t.outcomesIn t.era) := by
    refine haccounts.counts ?_
    by_cases hstate : t.breaker.state = .opened
    · exact .inr (hopened hstate).1
    · exact .inl hstate
  dsimp only
  rw [← hbalanced.orderly.length_passesIn]
  refine ⟨hcounts, ?_, ?_, ?_, ?_⟩
  · intro hcalm
    exact lostIn_eq_nil (hlost hcalm) t.era
  · intro hhalf
    exact (haccounts.halfOpen hhalf).1
  · intro hstate
    refine ⟨(hopened hstate).1, (hopened hstate).2.1, ?_⟩
    rw [hcounts, hbalanced.passesIn_opened hstate, (hopened hstate).1]
    rfl
  · intro p hp now hstate
    exact hbalanced.generation_ne_of_opened hfew hp hstate

/-- A circuit with two trials that opens for a second. -/
def twoTrials : BreakerSettings :=
  ⟨"trials", 2, .zero, .ofSecs 1⟩

/-- It trips and recovers; one trial has succeeded, and the other is in flight. -/
def recovering : List Event :=
  [.plain 0 .enter, .plain 1 (.leave 0 .raises), .plain 2_000_000_000 .enter,
    .plain 2_000_000_000 .enter, .plain 3_000_000_000 (.leave 2 (.returns (.ok "")))]

theorem counts_account_recovering :
    (run twoTrials 0 recovering).era < UInt64.size ∧
      (run twoTrials 0 recovering).breaker.counts = .tally 2 [true] :=
  ⟨by decide, (counts_account twoTrials 0 recovering (by decide)).1⟩

end Traffic

end Dialer
