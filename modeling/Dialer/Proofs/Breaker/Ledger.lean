import Dialer.Proofs.Breaker.Traffic
import Mathlib.Data.List.Nodup

/-!
# The record of a run is in order

The record of traffic is a ledger of calls: each call that passed is in flight, or settled, or
lost, in exactly one of these places (`Orderly.conserved`), and it belongs to the generation
that was current when it passed (`Orderly.mem_passes`). Every run keeps this
(`orderly_run`), whatever the callbacks do.

While there have been fewer than `2 ^ 64` generations, the breaker's own number tells a call of
the current generation from every other (`Orderly.generation_eq_iff`).
-/

namespace Dialer

namespace Breaker

/-- An operation that begins no generation. -/
structure Goes (b b' : Breaker) : Prop where
  settings : b'.settings = b.settings
  state : b'.state = b.state
  generation : b'.generation = b.generation
  expiry : b'.expiry = b.expiry

/-- The states in which the next generation can begin. -/
inductive Leads : CircuitState → CircuitState → Prop
  | window : Leads .closed .closed
  | trips : Leads .closed .opened
  | trial : Leads .opened .halfOpen
  | closes : Leads .halfOpen .closed
  | reopens : Leads .halfOpen .opened

/-- Only a closed circuit begins a generation in the same state. -/
theorem Leads.eq_closed {state : CircuitState} (h : Leads state state) : state = .closed := by
  cases h
  rfl

theorem Leads.eq_opened {state : CircuitState} (h : Leads state .halfOpen) : state = .opened := by
  cases h
  rfl

/-- An operation that begins no generation, or one that begins the next. -/
def GoesOrEnters (now : Nat) (b b' : Breaker) : Prop :=
  Goes b b' ∨ ∃ state, Leads b.state state ∧ b' = b.enter state now

theorem Goes.refl (b : Breaker) : Goes b b :=
  ⟨rfl, rfl, rfl, rfl⟩

theorem Goes.of_eq {b b' : Breaker} (h : b' = b) : Goes b b' :=
  h ▸ .refl b

theorem Goes.of_counts {b b' : Breaker} {counts : Counts} (h : b' = { b with counts }) :
    Goes b b' := by
  subst h
  exact ⟨rfl, rfl, rfl, rfl⟩

theorem Refreshed.goesOrEnters {b b' : Breaker} {now : Nat} {made : List Transition}
    (h : Refreshed b now b' made) : GoesOrEnters now b b' := by
  cases h with
  | current _ => exact .inl (.refl b)
  | window hstate _ => exact .inr ⟨_, hstate ▸ .window, rfl⟩
  | trial hstate _ => exact .inr ⟨_, hstate ▸ .trial, rfl⟩

theorem Told.goesOrEnters {b b' : Breaker} {now : Nat} {generation : UInt64} {success : Bool}
    (h : Told b now generation success b') : GoesOrEnters now b b' := by
  cases h with
  | stale _ => exact .inl (.refl b)
  | heard _ hears =>
      cases hears with
      | success _ => exact .inl (.of_counts rfl)
      | closes hstate _ => exact .inr ⟨_, hstate ▸ .closes, rfl⟩
      | failure _ => exact .inl (.of_counts rfl)
      | trips hstate => exact .inr ⟨_, hstate ▸ .trips, rfl⟩
      | reopens hstate => exact .inr ⟨_, hstate ▸ .reopens, rfl⟩
      | unmoved _ => exact .inl (.refl b)

/-- An open circuit stays open at any outcome. -/
theorem Told.goes_of_opened {b b' : Breaker} {now : Nat} {generation : UInt64} {success : Bool}
    (h : Told b now generation success b') (hopened : b.state = .opened) : Goes b b' := by
  cases h with
  | stale _ => exact .refl b
  | heard _ hears =>
      cases hears with
      | success _ => exact .of_counts rfl
      | unmoved _ => exact .refl b
      | closes hstate _ => exact absurd (hstate.symm.trans hopened) (by decide)
      | failure hstate => exact absurd (hstate.symm.trans hopened) (by decide)
      | trips hstate => exact absurd (hstate.symm.trans hopened) (by decide)
      | reopens hstate => exact absurd (hstate.symm.trans hopened) (by decide)

theorem not_admitted_of_opened {b : Breaker} (hopened : b.state = .opened)
    (generation : UInt64) : b.check ≠ .admitted generation := by
  simp [check_eq_admitted, hopened]

end Breaker

namespace Traffic

open Breaker

/-- The record is in order. -/
structure Orderly (t : Traffic) : Prop where
  /-- The breaker counts generations as the record does, in 64 bits. -/
  generation : t.breaker.generation = .ofNat t.era
  /-- A call belongs to a generation that has begun. -/
  mem_passes : ∀ p ∈ t.passes, p.era ≤ t.era ∧ p.generation = .ofNat p.era
  number_lt : ∀ p ∈ t.passes, p.number < t.passes.length
  number_nodup : (t.passes.map (·.number)).Nodup
  /-- Each call that passed is in one place. -/
  conserved : t.passes.Perm (t.settled.map (·.pass) ++ t.afloat ++ t.lost)
  /-- An outcome comes in no earlier than the call passed. -/
  settled_le : ∀ r ∈ t.settled, r.pass.era ≤ r.era ∧ r.era ≤ t.era

variable {t : Traffic}

theorem orderly_start (s : BreakerSettings) (now : Nat) : Orderly (start s now) where
  generation := rfl
  mem_passes := by intro p hp; exact absurd hp List.not_mem_nil
  number_lt := by intro p hp; exact absurd hp List.not_mem_nil
  number_nodup := List.nodup_nil
  conserved := List.Perm.refl _
  settled_le := by intro r hr; exact absurd hr List.not_mem_nil

theorem Orderly.mem_of_afloat (h : Orderly t) {p : Pass} (hp : p ∈ t.afloat) : p ∈ t.passes :=
  h.conserved.mem_iff.mpr (List.mem_append_left _ (List.mem_append_right _ hp))

theorem Orderly.mem_of_settled (h : Orderly t) {r : Settlement} (hr : r ∈ t.settled) :
    r.pass ∈ t.passes :=
  h.conserved.mem_iff.mpr
    (List.mem_append_left _ (List.mem_append_left _ (List.mem_map_of_mem hr)))

/-- The numbers tell calls apart. -/
theorem Orderly.eq_of_number (h : Orderly t) {p q : Pass} (hp : p ∈ t.passes)
    (hq : q ∈ t.passes) (hnumber : p.number = q.number) : p = q :=
  List.inj_on_of_nodup_map h.number_nodup hp hq hnumber

/-- A call in flight is found by its number. -/
theorem Orderly.call?_number (h : Orderly t) {p : Pass} (hp : p ∈ t.afloat) :
    t.call? p.number = some p := by
  cases hfound : t.call? p.number with
  | none =>
      have hnone := List.find?_eq_none.mp hfound p hp
      simp at hnone
  | some q =>
      have hq := h.mem_of_afloat (mem_of_call? hfound)
      rw [h.eq_of_number hq (h.mem_of_afloat hp) (number_of_call? hfound)]

/-! ## The elementary changes -/

/-- An operation of the desk that begins no generation does not concern the record. -/
theorem Orderly.goes (h : Orderly t) {d : Desk} (hd : Goes t.breaker d.breaker) :
    Orderly { t with desk := d } :=
  { h with generation := hd.generation.trans h.generation }

theorem Orderly.enter (h : Orderly t) {state : CircuitState} {now : Nat} {d : Desk}
    (hd : d.breaker = t.breaker.enter state now) : Orderly (t.carry now d) := by
  rw [carry_enter hd]
  refine { h with generation := ?_, mem_passes := ?_, settled_le := ?_ }
  · show d.breaker.generation = _
    rw [hd, enter_generation, h.generation, UInt64.ofNat_add]
    rfl
  · intro p hp
    obtain ⟨hera, hgen⟩ := h.mem_passes p hp
    exact ⟨Nat.le_succ_of_le hera, hgen⟩
  · intro r hr
    obtain ⟨hpass, hera⟩ := h.settled_le r hr
    exact ⟨hpass, Nat.le_succ_of_le hera⟩

theorem Orderly.carry (h : Orderly t) {now : Nat} {d : Desk}
    (hd : GoesOrEnters now t.breaker d.breaker) : Orderly (t.carry now d) := by
  rcases hd with hgoes | ⟨_, _, henter⟩
  · rw [carry_same hgoes.generation hgoes.state]
    exact h.goes hgoes
  · exact h.enter henter

theorem Orderly.board (h : Orderly t) {now : Nat} {generation : UInt64} {d : Desk}
    (hgen : generation = t.breaker.generation) (hd : Goes t.breaker d.breaker) :
    Orderly (t.board now generation d) where
  generation := hd.generation.trans h.generation
  mem_passes := by
    intro p hp
    rcases List.mem_cons.mp hp with rfl | hold
    · exact ⟨Nat.le_refl _, hgen.trans h.generation⟩
    · exact h.mem_passes p hold
  number_lt := by
    intro p hp
    show p.number < t.passes.length + 1
    rcases List.mem_cons.mp hp with rfl | hold
    · exact Nat.lt_succ_self _
    · exact Nat.lt_succ_of_lt (h.number_lt p hold)
  number_nodup := by
    refine List.nodup_cons.mpr ⟨?_, h.number_nodup⟩
    intro hmem
    obtain ⟨p, hp, hnumber⟩ := List.mem_map.mp hmem
    exact Nat.ne_of_lt (h.number_lt p hp) hnumber
  conserved := by
    show (t.nextPass now generation :: t.passes).Perm
      (t.settled.map (·.pass) ++ t.nextPass now generation :: t.afloat ++ t.lost)
    rw [List.append_assoc, List.cons_append]
    refine (h.conserved.cons _).trans ?_
    rw [List.append_assoc]
    exact List.perm_middle.symm
  settled_le := h.settled_le

/-- A call in flight can be put at the front of the record. -/
theorem Orderly.conserved_cons (h : Orderly t) {p : Pass} (hp : p ∈ t.afloat) :
    t.passes.Perm (p :: (t.settled.map (·.pass) ++ t.afloat.erase p ++ t.lost)) := by
  -- take it out of the calls in flight, then move it to the front of the whole
  refine h.conserved.trans ?_
  rw [List.append_assoc, List.append_assoc]
  refine (List.Perm.append_left _ ((List.perm_cons_erase hp).append_right _)).trans ?_
  exact List.perm_middle

theorem Orderly.lose (h : Orderly t) {p : Pass} (hp : p ∈ t.afloat) : Orderly (t.lose p) :=
  { h with
    conserved := (h.conserved_cons hp).trans List.perm_middle.symm }

theorem Orderly.settle (h : Orderly t) {p : Pass} (success : Bool) (hp : p ∈ t.afloat) :
    Orderly (t.settle p success) :=
  { h with
    conserved := h.conserved_cons hp
    settled_le := by
      intro r hr
      rcases List.mem_cons.mp hr with rfl | hold
      · exact ⟨(h.mem_passes p (h.mem_of_afloat hp)).1, Nat.le_refl _⟩
      · exact h.settled_le r hold }

theorem orderly_kept : Kept Orderly where
  turn t now h := h.carry (refresh_cases t.breaker now).goesOrEnters
  aside _ _ hd h := h.goes (.of_eq hd)
  board _ _ _ _ hcheck hd h := h.board (check_eq_admitted.mp hcheck).1 (.of_counts hd)
  tell _ _ _ success _ hp hd h := (h.settle success hp).carry hd.goesOrEnters
  lose _ _ hp h := h.lose hp

/-- The record of every run is in order. -/
theorem orderly_run (s : BreakerSettings) (start : Nat) (events : List Event) :
    Orderly (run s start events) :=
  orderly_kept.run (orderly_start s start) events

/-! ## Generations in 64 bits -/

/-- The number of a generation in 64 bits tells it from all others while there have been fewer
than `2 ^ 64`. -/
theorem ofNat_inj_of_lt {m n : Nat} (hm : m < UInt64.size) (hn : n < UInt64.size) :
    UInt64.ofNat m = UInt64.ofNat n ↔ m = n := by
  constructor
  · intro h
    have hnat := congrArg UInt64.toNat h
    rwa [UInt64.toNat_ofNat_of_lt' hm, UInt64.toNat_ofNat_of_lt' hn] at hnat
  · rintro rfl
    rfl

/-- A call carries the breaker's generation exactly if it is of the current one. -/
theorem Orderly.generation_eq_iff (h : Orderly t) (hfew : t.era < UInt64.size) {p : Pass}
    (hp : p ∈ t.passes) : p.generation = t.breaker.generation ↔ p.era = t.era := by
  obtain ⟨hera, hgen⟩ := h.mem_passes p hp
  rw [hgen, h.generation]
  exact ofNat_inj_of_lt (Nat.lt_of_le_of_lt hera hfew) hfew

/-! ## Outcomes that go astray -/

/-- Two ways for a call to end without the breaker being told: the hook raises as the call is
admitted, or the classifier raises as it ends. -/
def Strays (t : Traffic) (e : Event) (p : Pass) : Prop :=
  (e.act = .enter ∧ (t.desk.enter e.callbacks e.now).2 = .raised ∧
      (t.step e).passes = p :: t.passes) ∨
    ∃ outcome, e.act = .leave p.number outcome ∧ e.callbacks.verdict? outcome = none

/-- There is a verdict on every call but one that returns. -/
theorem act_of_lost {e : Event} {p : Pass} {outcome : Outcome}
    (hclosing : t.closing? e = some (p, outcome)) (hverdict : e.callbacks.verdict? outcome = none) :
    e.act = .leave p.number outcome := by
  obtain ⟨-, hact | ⟨-, rfl⟩⟩ := closing?_cases hclosing
  · exact hact
  · cases hverdict

/-- No other call is lost. -/
theorem step_lost (t : Traffic) (e : Event) :
    (t.step e).lost = t.lost ∨ ∃ p, (t.step e).lost = p :: t.lost ∧ Strays t e p := by
  have hforms := t.step_forms e
  generalize hstep : t.step e = t' at hforms ⊢
  cases hforms with
  | enters hact =>
      unfold Strays step
      rw [hact]
      dsimp only
      rcases t.desk.enter e.callbacks e.now with ⟨d, entry⟩
      cases entry with
      | passed generation => exact .inl rfl
      | rejected error => exact .inl rfl
      | raised =>
          cases (t.breaker.ask e.now).answer with
          | rejected error => exact .inl rfl
          | admitted generation => exact .inr ⟨_, rfl, .inl ⟨rfl, rfl, rfl⟩⟩
  | tells => exact .inl rfl
  | loses p outcome hclosing hverdict =>
      exact .inr ⟨p, rfl, .inr ⟨outcome, act_of_lost hclosing hverdict, hverdict⟩⟩
  | observes => exact .inl rfl
  | rests => exact .inl rfl

theorem not_strays {e : Event} (hcalm : e.Calm) (t : Traffic) (p : Pass) : ¬ Strays t e p := by
  rintro (⟨_, hraised, _⟩ | ⟨outcome, _, hnone⟩)
  · have hentry := hcalm.entry t.desk
    rw [hraised] at hentry
    cases hanswer : (t.desk.breaker.ask e.now).answer <;> simp [hanswer] at hentry
  · exact hcalm.verdict outcome hnone

theorem after_lost (t : Traffic) {events : List Event} (hcalm : ∀ e ∈ events, e.Calm) :
    (t.after events).lost = t.lost := by
  induction events generalizing t with
  | nil => rfl
  | cons e rest ih =>
      have hrest := ih (t.step e) (fun e' he' => hcalm e' (List.mem_cons_of_mem _ he'))
      rcases step_lost t e with hsame | ⟨p, _, hstrays⟩
      · exact hrest.trans hsame
      · exact absurd hstrays (not_strays (hcalm e List.mem_cons_self) t p)

/-- Under calm callbacks no outcome goes astray. -/
theorem run_lost (s : BreakerSettings) (start : Nat) {events : List Event}
    (hcalm : ∀ e ∈ events, e.Calm) : (run s start events).lost = [] :=
  after_lost _ hcalm

/-! ## The record of one generation -/

theorem lostIn_eq_nil (h : t.lost = []) (era : Nat) : t.lostIn era = [] := by
  unfold lostIn
  rw [h]
  rfl

/-- The calls of a generation are those with an outcome, those in flight and those lost. -/
theorem Orderly.length_passesIn (h : Orderly t) (era : Nat) :
    (t.passesIn era).length =
      (t.outcomesIn era).length + (t.afloatIn era).length + (t.lostIn era).length := by
  -- the conservation of calls holds generation by generation
  have hlen := (h.conserved.filter (·.era = era)).length_eq
  rw [List.filter_append, List.filter_append, List.length_append, List.length_append,
    List.filter_map, List.length_map] at hlen
  unfold passesIn outcomesIn afloatIn lostIn
  rw [List.length_map]
  exact hlen

/-- Nothing is on record for a generation that has not begun. -/
theorem Orderly.passesIn_future (h : Orderly t) {era : Nat} (hera : t.era < era) :
    t.passesIn era = [] := by
  refine List.filter_eq_nil_iff.mpr ?_
  intro p hp heq
  have hle := (h.mem_passes p hp).1
  rw [of_decide_eq_true heq] at hle
  exact absurd hle (Nat.not_le.mpr hera)

end Traffic

end Dialer
