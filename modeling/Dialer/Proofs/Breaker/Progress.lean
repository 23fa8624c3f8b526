import Dialer.Proofs.Breaker.Trials

/-!
# A breaker always recovers

While the callbacks return normally, a breaker whose calls have all ended lets the next call
pass, at once or after the open period (`never_wedged`): a half-open circuit cannot have used up
its trials on calls that have ended, and an open circuit has the instant of its recovery fixed.

An open period that leads beyond all instants has no end. A circuit that has been closed without a
rolling window is left open for good then (`OpenSince.for_good`, `unending_wedges`).
-/

namespace Dialer

/-- A call that passes runs, and ends as it would by itself. -/
theorem Desk.call_of_passed {cb : BreakerCallbacks} {d : Desk} {now : Nat} {generation : UInt64}
    (h : (d.enter cb now).2 = .passed generation) (outcome : Outcome) :
    d.call cb now outcome = (d.enter cb now).1.leave cb now generation outcome := by
  unfold call
  rcases hdesk : d.enter cb now with ⟨d', entry⟩
  rw [hdesk] at h
  rw [show entry = .passed generation from h]

namespace Event

/-- The breaker has no part in it: its counts are read, or the classifier raises before the
breaker is told. -/
def Apart (e : Event) : Prop :=
  e.act = .count ∨ ∃ number outcome, e.act = .leave number outcome ∧
    e.callbacks.verdict? outcome = none

end Event

namespace Traffic

open Breaker

variable {s : BreakerSettings} {t : Traffic} {e : Event}

/-- The call that asks to pass does: it is run, and is in flight until it ends. -/
def Admits (t : Traffic) (e : Event) : Prop :=
  ∃ p, (t.desk.enter e.callbacks e.now).2 = .passed p.generation ∧
    (∀ outcome, t.desk.call e.callbacks e.now outcome =
      (t.desk.enter e.callbacks e.now).1.leave e.callbacks e.now p.generation outcome) ∧
    (t.step e).passes = p :: t.passes ∧ (t.step e).afloat = p :: t.afloat

theorem admits_of_passed (hact : e.act = .enter) {generation : UInt64}
    (hentry : (t.desk.enter e.callbacks e.now).2 = .passed generation) : Admits t e := by
  refine ⟨(t.turn e.now).nextPass e.now generation, hentry, Desk.call_of_passed hentry, ?_⟩
  unfold step
  rw [hact]
  dsimp only
  rcases hdesk : t.desk.enter e.callbacks e.now with ⟨d, entry⟩
  rw [hdesk] at hentry
  rw [show entry = .passed generation from hentry]
  exact ⟨rfl, rfl⟩

theorem admits_of_check (hcalm : e.Calm) (hact : e.act = .enter) {generation : UInt64}
    (hcheck : (t.turn e.now).breaker.check = .admitted generation) : Admits t e := by
  have hentry := hcalm.entry t.desk
  rw [ask_answer, show (t.breaker.refresh e.now).1.check = _ from hcheck] at hentry
  exact admits_of_passed hact hentry

/-! ## Closed -/

/-- The end of a rolling window does not close the way. -/
theorem turn_of_closed (hclosed : t.breaker.state = .closed) (now : Nat) :
    (t.turn now).breaker.state = .closed := by
  have hrefreshed := refresh_cases t.breaker now
  rw [turn_breaker]
  generalize t.breaker.refresh now = r at hrefreshed ⊢
  obtain ⟨b, made⟩ := r
  cases hrefreshed with
  | current _ => exact hclosed
  | window _ _ => rfl
  | trial hopened _ => exact absurd (hclosed.symm.trans hopened) (by decide)

theorem admits_of_closed (hclosed : t.breaker.state = .closed) (hcalm : e.Calm)
    (hact : e.act = .enter) : Admits t e :=
  admits_of_check hcalm hact (check_eq_admitted.mpr ⟨rfl, .inl (turn_of_closed hclosed e.now)⟩)

/-! ## Half-open -/

/-- The breaker hears at least the outcomes of the calls of the generation. -/
theorem Orderly.outcomesIn_le_heardIn (h : Orderly t) :
    (t.outcomesIn t.era).length ≤ (t.heardIn t.era).length := by
  unfold outcomesIn heardIn
  rw [List.length_map, List.length_map, ← List.countP_eq_length_filter,
    ← List.countP_eq_length_filter]
  refine List.countP_mono_left ?_
  intro r hr howns
  have hown : r.pass.era = t.era := of_decide_eq_true howns
  obtain ⟨hpass, hera⟩ := h.settled_le r hr
  have hgen := (h.mem_passes _ (h.mem_of_settled hr)).2
  refine decide_eq_true ⟨Nat.le_antisymm hera (hown ▸ hpass), ?_⟩
  rw [hgen, hown]

/-- Calls that have ended, and of which none was lost, leave a trial over. -/
theorem Balanced.trial_left (h : Balanced t) (hhalf : t.breaker.state = .halfOpen)
    (hafloat : t.afloatIn t.era = []) (hlost : t.lost = []) :
    (t.passesIn t.era).length < t.breaker.settings.trials := by
  have hpasses := h.orderly.length_passesIn t.era
  -- all calls of the period have an outcome, and there are too few of these to fill it
  rw [hafloat, lostIn_eq_nil hlost, List.length_nil, Nat.add_zero] at hpasses
  rw [hpasses]
  exact Nat.lt_of_le_of_lt h.orderly.outcomesIn_le_heardIn (h.accounts.halfOpen hhalf).2.1

theorem Balanced.admits_of_halfOpen (h : Balanced t) (hhalf : t.breaker.state = .halfOpen)
    (hleft : (t.passesIn t.era).length < t.breaker.settings.trials) (hcalm : e.Calm)
    (hact : e.act = .enter) : Admits t e := by
  have hcheck := h.check_halfOpen hhalf
  rw [if_neg (Nat.ne_of_lt hleft)] at hcheck
  rw [← turn_of_halfOpen hhalf e.now] at hcheck
  exact admits_of_check hcalm hact hcheck

/-! ## Open -/

/-- The circuit has been open since a change, and its open period has the given end, or none. -/
structure OpenSince (s : BreakerSettings) (m : Move) (earlier : List Move) (expiry : Option Nat)
    (t : Traffic) : Prop where
  settings : t.breaker.settings = s
  state : t.breaker.state = .opened
  expiry : t.breaker.expiry = expiry
  moves : t.moves = m :: earlier

variable {m : Move} {earlier : List Move} {expiry : Option Nat}

theorem OpenSince.goes (h : OpenSince s m earlier expiry t) {d : Desk}
    (hd : Goes t.breaker d.breaker) : OpenSince s m earlier expiry { t with desk := d } :=
  ⟨hd.settings.trans h.settings, hd.state.trans h.state, hd.expiry.trans h.expiry, h.moves⟩

theorem OpenSince.refresh (h : OpenSince s m earlier expiry t) {now : Nat}
    (hearly : ∀ due ∈ expiry, now < due) : t.breaker.refresh now = (t.breaker, []) := by
  have hexpired : t.breaker.isExpired now = false := by
    unfold isExpired
    rw [h.expiry]
    cases expiry with
    | none => rfl
    | some due => exact decide_eq_false (Nat.not_le.mpr (hearly due rfl))
  simp [Breaker.refresh, hexpired]

theorem OpenSince.turn (h : OpenSince s m earlier expiry t) {now : Nat}
    (hearly : ∀ due ∈ expiry, now < due) : t.turn now = t := by
  unfold Traffic.turn
  rw [h.refresh hearly, carry_same rfl rfl]

/-- No event before the end of the period changes anything about it. -/
theorem OpenSince.step (h : OpenSince s m earlier expiry t) (hearly : ∀ due ∈ expiry, e.now < due) :
    OpenSince s m earlier expiry (t.step e) := by
  have hturn := h.turn hearly
  have hstep := step_stepped t e
  generalize t.step e = t' at hstep ⊢
  cases hstep with
  | idle => exact h
  | aside d hd =>
      rw [hturn] at hd ⊢
      exact h.goes (.of_eq hd)
  | board generation d hcheck _ =>
      rw [hturn] at hcheck
      exact absurd hcheck (not_admitted_of_opened h.state generation)
  | strand generation d hcheck _ =>
      rw [hturn] at hcheck
      exact absurd hcheck (not_admitted_of_opened h.state generation)
  | tell p success d _ hd =>
      rw [hturn] at hd ⊢
      have hgoes := hd.goes_of_opened h.state
      rw [tell_goes p success e.now hgoes]
      exact { h.goes hgoes with }
  | lose p _ => exact { h with }

/-- Nor does an event in which the breaker has no part, at any instant. -/
theorem OpenSince.step_of_apart (h : OpenSince s m earlier expiry t) (hapart : e.Apart) :
    OpenSince s m earlier expiry (t.step e) := by
  have hforms := t.step_forms e
  generalize t.step e = t' at hforms ⊢
  cases hforms with
  | loses => exact { h with }
  | rests => exact h
  | enters hact => simp [Event.Apart, hact] at hapart
  | observes hact => simp [Event.Apart, hact] at hapart
  | tells p outcome success hclosing hverdict =>
      obtain ⟨-, hact | ⟨hact, -⟩⟩ := closing?_cases hclosing
      · simp [Event.Apart, hact, hverdict] at hapart
      · simp [Event.Apart, hact] at hapart

theorem OpenSince.after (h : OpenSince s m earlier expiry t) {events : List Event}
    (hevents : ∀ e ∈ events, (∀ due ∈ expiry, e.now < due) ∨ e.Apart) :
    OpenSince s m earlier expiry (t.after events) := by
  induction events generalizing t with
  | nil => exact h
  | cons e rest ih =>
      have hrest := fun e' he' => hevents e' (List.mem_cons_of_mem e he')
      rcases hevents e List.mem_cons_self with hearly | hapart
      · exact ih (h.step hearly) hrest
      · exact ih (h.step_of_apart hapart) hrest

/-- A call is rejected at once and not run, whatever the callbacks would do. -/
theorem OpenSince.enter (h : OpenSince s m earlier expiry t) (cb : BreakerCallbacks) {now : Nat}
    (hearly : ∀ due ∈ expiry, now < due) :
    (t.desk.enter cb now).2 = .rejected (.circuitOpen s.name) := by
  have hrefresh := h.refresh hearly
  have hcheck : t.breaker.check = .rejected (.circuitOpen s.name) := by
    simp [Breaker.check, h.state, h.settings]
  have hentry := Desk.enter_entry_of_report cb t.desk now (by rw [ask_transitions, hrefresh]; rfl)
  rw [ask_answer, hrefresh, hcheck] at hentry
  exact hentry

theorem OpenSince.observe (h : OpenSince s m earlier expiry t) (cb : BreakerCallbacks) {now : Nat}
    (hearly : ∀ due ∈ expiry, now < due) : (t.desk.observe cb now).2 = .returned .opened := by
  unfold Desk.observe Breaker.observe
  rw [show t.desk.breaker.refresh now = _ from h.refresh hearly]
  exact congrArg _ h.state

/-- An open period without an end is there for good: the circuit rejects every call, whatever
happens. -/
theorem OpenSince.for_good (h : OpenSince s m earlier none t) (events : List Event)
    (cb : BreakerCallbacks) (now : Nat) :
    OpenSince s m earlier none (t.after events) ∧
      ((t.after events).desk.enter cb now).2 = .rejected (.circuitOpen s.name) := by
  have hnever (time : Nat) : ∀ due ∈ none, time < due := fun _ hdue => by cases hdue
  have hafter : OpenSince s m earlier none (t.after events) :=
    h.after fun e _ => .inl (hnever e.now)
  exact ⟨hafter, hafter.enter cb (hnever now)⟩

/-- At the end of the open period the circuit is half-open, with all its trials. -/
theorem admits_of_opened (hopened : t.breaker.state = .opened) {expiry : Nat}
    (hexpiry : t.breaker.expiry = some expiry) (hdue : expiry ≤ e.now) (hcalm : e.Calm)
    (hact : e.act = .enter) : Admits t e := by
  have hexpired : t.breaker.isExpired e.now = true := by
    unfold isExpired
    rw [hexpiry]
    exact decide_eq_true hdue
  have hrefresh : (t.turn e.now).breaker = t.breaker.enter .halfOpen e.now := by
    rw [turn_breaker]
    unfold refresh
    rw [if_pos hexpired, hopened]
  refine admits_of_check hcalm hact (check_eq_admitted.mpr ⟨rfl, .inr ?_⟩)
  rw [hrefresh]
  exact ⟨rfl, t.breaker.settings.one_le_trials⟩

/-- The change that opened the circuit fixed the end of the open period, if that is an instant. -/
theorem Moved.begun_opened (h : Moved s t) (hopened : t.breaker.state = .opened) :
    ∃ m rest, t.moves = m :: rest ∧ m.change.target = .opened ∧ m.era = t.era ∧
      ∀ due ∈ Clock.instant? m.time s.openDuration, t.breaker.expiry = some due := by
  obtain ⟨m, rest, hmoves, htarget, hera, hexpiry⟩ := h.begun_of_state hopened (by decide)
  exact ⟨m, rest, hmoves, htarget, hera, hexpiry rfl⟩

/-- **A breaker never wedges.** After every run in which the callbacks returned normally: a
closed circuit lets the next call pass, and so does a half-open one of whose calls none is in
flight, for it has a trial left; an open circuit ends its open period one open duration after
the instant it opened, if there is such an instant, and the next call from then on passes. -/
theorem never_wedged (s : BreakerSettings) (start : Nat) (events : List Event)
    (hcalm : ∀ e ∈ events, e.Calm) :
    let t := run s start events
    (t.breaker.state = .closed → ∀ e : Event, e.Calm → e.act = .enter → Admits t e) ∧
      (t.breaker.state = .halfOpen → t.afloatIn t.era = [] →
        (t.passesIn t.era).length < s.trials ∧
          ∀ e : Event, e.Calm → e.act = .enter → Admits t e) ∧
      (t.breaker.state = .opened → ∃ m rest, t.moves = m :: rest ∧ m.change.target = .opened ∧
        m.era = t.era ∧ ∀ due ∈ Clock.instant? m.time s.openDuration,
          t.breaker.expiry = some due ∧
            ∀ e : Event, e.Calm → e.act = .enter → due ≤ e.now → Admits t e) := by
  have hbalanced := balanced_run s start events
  have hmoved := moved_run s start events
  have hlost := run_lost s start hcalm
  generalize run s start events = t at hbalanced hmoved hlost ⊢
  refine ⟨?_, ?_, ?_⟩
  · intro hclosed e hnext hact
    exact admits_of_closed hclosed hnext hact
  · intro hhalf hafloat
    have hleft := hbalanced.trial_left hhalf hafloat hlost
    rw [hmoved.settings] at hleft
    refine ⟨hleft, fun e hnext hact => ?_⟩
    rw [← hmoved.settings] at hleft
    exact hbalanced.admits_of_halfOpen hhalf hleft hnext hact
  · intro hopened
    obtain ⟨m, rest, hmoves, htarget, hera, hexpiry⟩ := hmoved.begun_opened hopened
    refine ⟨m, rest, hmoves, htarget, hera, fun due hdue => ⟨hexpiry due hdue, ?_⟩⟩
    intro e hnext hact hlate
    exact admits_of_opened hopened (hexpiry due hdue) hlate hnext hact

/-- A circuit that has tripped, and one that has heard the first of its trials succeed. -/
theorem never_wedged_recovering :
    let tripped := recovering.take 2
    let tried := recovering.take 3 ++ [.plain 3_000_000_000 (.leave 1 (.returns (.ok "")))]
    (∀ e ∈ tripped, e.Calm) ∧ Admits (run twoTrials 0 tripped) (.plain 1_000_000_001 .enter) ∧
      (∀ e ∈ tried, e.Calm) ∧ Admits (run twoTrials 0 tried) (.plain 4_000_000_000 .enter) := by
  intro tripped tried
  have htripped : ∀ e ∈ tripped, e.Calm := by
    intro e he
    simp only [tripped, recovering, List.take, List.mem_cons, List.not_mem_nil, or_false] at he
    rcases he with rfl | rfl <;> exact Event.calm_plain _ _
  have htried : ∀ e ∈ tried, e.Calm := by
    intro e he
    simp only [tried, recovering, List.take, List.cons_append, List.nil_append, List.mem_cons,
      List.not_mem_nil, or_false] at he
    rcases he with rfl | rfl | rfl | rfl <;> exact Event.calm_plain _ _
  refine ⟨htripped, ?_, htried, ?_⟩
  · obtain ⟨m, rest, hmoves, _, _, hends⟩ :=
      (never_wedged twoTrials 0 tripped htripped).2.2 rfl
    have hm : ⟨⟨.closed, .opened⟩, 1, 1⟩ = m := (List.cons.inj hmoves).1
    subst hm
    exact (hends 1_000_000_001 (by decide)).2 _ (Event.calm_plain _ _) rfl (by decide)
  · have hleft := (never_wedged twoTrials 0 tried htried).2.1 rfl rfl
    exact hleft.2 _ (Event.calm_plain _ _) rfl

/-- A circuit that opens for a span beyond all instants, as its first call fails, has no end of its
open period. No call passes ever after, whatever happens. -/
theorem unending_wedges :
    let opened := run unending 0
      [.plain 0 .enter, .plain 1 (.leave 0 (.returns (.error (.failed "boom"))))]
    opened.breaker.state = .opened ∧ opened.breaker.expiry = none ∧ opened.afloat = [] ∧
      ∀ (events : List Event) (cb : BreakerCallbacks) (now : Nat),
        ((opened.after events).desk.enter cb now).2 = .rejected (.circuitOpen "unending") := by
  intro opened
  have hexpiry : opened.breaker.expiry = none := by decide
  have hopen : OpenSince unending ⟨⟨.closed, .opened⟩, 1, 1⟩ [] none opened :=
    ⟨rfl, rfl, hexpiry, rfl⟩
  exact ⟨rfl, hexpiry, rfl, fun events cb now => (hopen.for_good events cb now).2⟩

end Traffic

end Dialer
