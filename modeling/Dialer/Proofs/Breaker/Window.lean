import Dialer.Breaker.Rule
import Dialer.Proofs.Breaker.Outcomes
import Dialer.Proofs.Breaker.Queries

/-!
# The rolling window

A closed circuit counts in windows. No timer ends a window: the first operation that finds it
over begins the next one, at its own instant. `Windowed` is traffic with the instant at which its
current generation began, and `Framed` relates this instant to those at which calls passed:

* a call of the current generation passed since it began, and before its end by time;
* any other passed before it began, or before a change of state that is on record.

Both hold of every run whose clock does not go back (`framed_run`). Since the counters are those
of the current generation (`Balanced`), this says what the trip predicate sees.
-/

namespace Dialer

/-- Traffic, and the instant at which its current generation began. -/
structure Windowed where
  traffic : Traffic
  began : Nat

/-- The counters go on: they are as they were, or one more thing has been counted. -/
inductive Counts.GoesOn (before : Counts) : Counts → Prop
  | same : GoesOn before before
  | request : GoesOn before before.request
  | success : GoesOn before before.success
  | failure : GoesOn before before.failure

namespace Desk

/-! ## The part of the predicate -/

variable {cb cb' : BreakerCallbacks}

/-- A report depends on the hook only. -/
theorem report_congr (h : cb'.hook = cb.hook) (d : Desk) (made : List Transition) :
    report cb' d made = report cb d made := by
  induction made generalizing d with
  | nil => rfl
  | cons first rest ih =>
      unfold report
      rw [h]
      cases cb.hook with
      | none => exact ih _
      | some hook =>
          dsimp only
          cases hook first with
          | raised => rfl
          | returned _ => exact ih _

theorem enter_congr (h : cb'.hook = cb.hook) (d : Desk) (now : Nat) :
    d.enter cb' now = d.enter cb now := by
  unfold enter
  simp only [report_congr h]

theorem observe_congr (h : cb'.hook = cb.hook) (d : Desk) (now : Nat) :
    d.observe cb' now = d.observe cb now := by
  unfold observe
  simp only [report_congr h]

theorem record_congr (h : cb'.hook = cb.hook) {d : Desk} {now : Nat} {generation : UInt64}
    {success : Bool}
    (htrips : ∀ c ∈ d.breaker.asked? now generation success, cb'.trips c = cb.trips c) :
    d.record cb' now generation success = d.record cb now generation success := by
  unfold record
  simp only [report_congr h, Breaker.record_congr htrips]

end Desk

/-- The event, with another trip predicate. -/
def Event.withTrips (e : Event) (trips : Counts → Reply Bool) : Event :=
  { e with callbacks := { e.callbacks with trips } }

/-- The predicate has a part in an event through its reply on the counts that it is asked about,
and on no others. -/
theorem Traffic.step_withTrips {t : Traffic} {e : Event} {trips : Counts → Reply Bool}
    (h : ∀ c ∈ (t.effect e).asked, trips c = e.callbacks.trips c) :
    t.step (e.withTrips trips) = t.step e := by
  have hhook : (e.withTrips trips).callbacks.hook = e.callbacks.hook := rfl
  cases errand t e with
  | enters hact =>
      have hact' : (e.withTrips trips).act = .enter := hact
      unfold step
      simp only [hact, hact', Desk.enter_congr hhook]
      rfl
  | @tells p outcome success _ hclosing hverdict =>
      have hclosing' : t.closing? (e.withTrips trips) = some (p, outcome) := hclosing
      have hverdict' : (e.withTrips trips).callbacks.verdict? outcome = some success := by
        rw [← hverdict]
        rfl
      have htrips (c) (hc : c ∈ t.desk.breaker.asked? e.now p.generation success) :
          (e.withTrips trips).callbacks.trips c = e.callbacks.trips c := by
        refine h c ?_
        simp only [effect, hclosing, hverdict, Option.bind_some]
        exact hc
      have hrecord := Desk.record_congr hhook htrips
      rw [step_of_closing hclosing, step_of_closing hclosing', hverdict, hverdict']
      exact congrArg (fun d : Desk × Reply Unit => (t.turn e.now).tell e.now p success d.1) hrecord
  | @loses p outcome _ hclosing hverdict =>
      have hclosing' : t.closing? (e.withTrips trips) = some (p, outcome) := hclosing
      have hverdict' : (e.withTrips trips).callbacks.verdict? outcome = none := by
        rw [← hverdict]
        rfl
      rw [step_of_closing hclosing, step_of_closing hclosing', hverdict, hverdict']
  | misses hentry hclosing =>
      by_cases hobserve : e.act = .observe
      · have hobserve' : (e.withTrips trips).act = .observe := hobserve
        rw [step_of_observe hobserve, step_of_observe hobserve', Desk.observe_congr hhook]
        rfl
      · have hclosing' : t.closing? (e.withTrips trips) = none := hclosing
        rw [step_of_rest hentry hobserve hclosing,
          step_of_rest (e := e.withTrips trips) hentry hobserve hclosing']

/-- A closed circuit that is up to date has a window that is not over. -/
theorem Breaker.isExpired_refresh {b : Breaker} {now : Nat}
    (hclosed : (b.refresh now).1.state = .closed) : (b.refresh now).1.isExpired now = false := by
  have hrefreshed := refresh_cases b now
  generalize b.refresh now = r at hrefreshed hclosed ⊢
  obtain ⟨r, made⟩ := r
  cases hrefreshed with
  | current h => exact h.resolve_right (fun hhalf => absurd (hclosed.symm.trans hhalf) (by decide))
  | window _ _ => exact enter_isExpired (by decide)
  | trial _ _ => exact absurd hclosed (by simp)

namespace Windowed

open Breaker Traffic

/-- Takes over what has become of the traffic at an instant. -/
def follow (w : Windowed) (t : Traffic) (now : Nat) : Windowed :=
  ⟨t, if t.era = w.traffic.era then w.began else now⟩

/-- Applies the change that is due by time. -/
def turn (w : Windowed) (now : Nat) : Windowed :=
  w.follow (w.traffic.turn now) now

/-- One event. -/
def step (w : Windowed) (e : Event) : Windowed :=
  w.follow (w.traffic.step e) e.now

/-- A run from a new breaker, whose first generation begins as it is made. -/
def run (s : BreakerSettings) (start : Nat) (events : List Event) : Windowed :=
  events.foldl step ⟨.start s start, start⟩

@[simp] theorem follow_traffic (w : Windowed) (t : Traffic) (now : Nat) :
    (w.follow t now).traffic = t :=
  rfl

@[simp] theorem turn_traffic (w : Windowed) (now : Nat) :
    (w.turn now).traffic = w.traffic.turn now :=
  rfl

@[simp] theorem step_traffic (w : Windowed) (e : Event) :
    (w.step e).traffic = w.traffic.step e :=
  rfl

theorem follow_same {w : Windowed} {t : Traffic} (h : t.era = w.traffic.era) (now : Nat) :
    w.follow t now = ⟨t, w.began⟩ := by
  unfold follow
  rw [if_pos h]

/-- What happens at one instant can be followed at once or bit by bit. -/
theorem follow_follow {w : Windowed} {t t' : Traffic} (h : w.traffic.era ≤ t.era)
    (h' : t.era ≤ t'.era) (now : Nat) : (w.follow t now).follow t' now = w.follow t' now := by
  unfold follow
  by_cases hsame : t'.era = w.traffic.era
  · have hfirst : t.era = w.traffic.era := by omega
    simp [hsame, hfirst]
  · by_cases hfirst : t.era = w.traffic.era
    · simp [hsame, hfirst]
    · simp [hsame, hfirst]

theorem run_concat (s : BreakerSettings) (start : Nat) (events : List Event) (e : Event) :
    run s start (events ++ [e]) = (run s start events).step e := by
  simp [run]

/-- The record with the instants is the record. -/
@[simp] theorem run_traffic (s : BreakerSettings) (start : Nat) (events : List Event) :
    (run s start events).traffic = Traffic.run s start events := by
  induction events using List.reverseRecOn with
  | nil => rfl
  | append_singleton events e ih => rw [run_concat, step_traffic, ih, Traffic.run_concat]

/-- How the current generation lies in time, at an instant. -/
structure Framed (s : BreakerSettings) (now : Nat) (w : Windowed) : Prop where
  began_le : w.began ≤ now
  window : w.traffic.breaker.state = .closed → w.traffic.breaker.expiry = windowEnd s w.began
  trial : w.traffic.breaker.state = .halfOpen → w.traffic.breaker.expiry = none
  passes_le : ∀ p ∈ w.traffic.passes, p.since ≤ now
  moves_le : ∀ m ∈ w.traffic.moves, m.time ≤ w.began
  /-- A call of the generation passed while it lasted. -/
  own : ∀ p ∈ w.traffic.passes, p.era = w.traffic.era →
    w.began ≤ p.since ∧ ∀ expiry ∈ w.traffic.breaker.expiry, p.since < expiry
  /-- Any other passed before it began, or before a change of state. -/
  other : ∀ p ∈ w.traffic.passes, p.era ≠ w.traffic.era →
    p.since < w.began ∨ ∃ m ∈ w.traffic.moves, p.era < m.era

variable {s : BreakerSettings} {now : Nat} {w : Windowed}

theorem framed_start (s : BreakerSettings) (now : Nat) : Framed s now ⟨.start s now, now⟩ where
  began_le := Nat.le_refl _
  window _ := rfl
  trial hhalf := absurd hhalf (show CircuitState.closed ≠ .halfOpen by decide)
  passes_le := by intro p hp; exact absurd hp List.not_mem_nil
  moves_le := by intro m hm; exact absurd hm List.not_mem_nil
  own := by intro p hp; exact absurd hp List.not_mem_nil
  other := by intro p hp; exact absurd hp List.not_mem_nil

/-! ## One step -/

theorem Framed.later (h : Framed s now w) {later : Nat} (hle : now ≤ later) :
    Framed s later w :=
  { h with
    began_le := Nat.le_trans h.began_le hle
    passes_le := fun p hp => Nat.le_trans (h.passes_le p hp) hle }

/-- Which calls are in flight, settled or lost does not matter, and what is counted neither. -/
theorem Framed.goes (h : Framed s now w) (t : Traffic) (hgoes : Goes w.traffic.breaker t.breaker)
    (hera : t.era = w.traffic.era) (hpasses : t.passes = w.traffic.passes)
    (hmoves : t.moves = w.traffic.moves) : Framed s now (w.follow t now) := by
  rw [follow_same hera]
  exact {
    began_le := h.began_le
    window := by rw [hgoes.expiry, hgoes.state]; exact h.window
    trial := by rw [hgoes.expiry, hgoes.state]; exact h.trial
    passes_le := by rw [hpasses]; exact h.passes_le
    moves_le := by rw [hmoves]; exact h.moves_le
    own := by rw [hpasses, hera, hgoes.expiry]; exact h.own
    other := by rw [hpasses, hera, hmoves]; exact h.other }

/-- A generation begins with a change of state, or because time is up for the one before. -/
theorem Framed.enter (h : Framed s now w) (horderly : Orderly w.traffic)
    (hsettings : w.traffic.breaker.settings = s) {state : CircuitState} {d : Desk}
    (hd : d.breaker = w.traffic.breaker.enter state now)
    (hwhy : state ≠ w.traffic.breaker.state ∨ w.traffic.breaker.isExpired now = true) :
    Framed s now (w.follow (w.traffic.carry now d) now) := by
  rw [carry_enter hd]
  unfold follow
  rw [if_neg (Nat.succ_ne_self _)]
  refine ⟨Nat.le_refl _, ?_, ?_, h.passes_le, ?_, ?_, ?_⟩
  · show d.breaker.state = .closed → d.breaker.expiry = windowEnd s now
    rw [hd, enter_state]
    rintro rfl
    rw [enter_closed_expiry, hsettings]
  · show d.breaker.state = .halfOpen → d.breaker.expiry = none
    rw [hd, enter_state]
    rintro rfl
    rfl
  · intro m hm
    dsimp only at hm ⊢
    have hold := fun m hm => Nat.le_trans (h.moves_le m hm) h.began_le
    split at hm
    · exact hold m hm
    · rcases List.mem_cons.mp hm with rfl | hm
      · exact Nat.le_refl _
      · exact hold m hm
  · -- no call has passed in it yet
    intro p hp (hera : p.era = w.traffic.era + 1)
    have hle := (horderly.mem_passes p hp).1
    omega
  · intro p hp _
    dsimp only
    by_cases hsame : state = w.traffic.breaker.state
    · -- the calls of the window that is over passed before its end
      rw [if_pos hsame]
      by_cases hown : p.era = w.traffic.era
      · refine .inl ?_
        have hexpired := hwhy.resolve_left (not_not.mpr hsame)
        unfold isExpired at hexpired
        cases hexpiry : w.traffic.breaker.expiry with
        | none => simp [hexpiry] at hexpired
        | some expiry =>
            have hdue : expiry ≤ now := by simpa [hexpiry] using hexpired
            exact Nat.lt_of_lt_of_le ((h.own p hp hown).2 expiry hexpiry) hdue
      · exact (h.other p hp hown).imp_left (Nat.lt_of_lt_of_le · h.began_le)
    · rw [if_neg hsame]
      exact .inr ⟨_, List.mem_cons_self, Nat.lt_succ_of_le (horderly.mem_passes p hp).1⟩

theorem Framed.turn (h : Framed s now w) (horderly : Orderly w.traffic)
    (hsettings : w.traffic.breaker.settings = s) : Framed s now (w.turn now) := by
  have hrefreshed := refresh_cases w.traffic.breaker now
  unfold Windowed.turn Traffic.turn
  generalize w.traffic.breaker.refresh now = r at hrefreshed ⊢
  obtain ⟨b, made⟩ := r
  cases hrefreshed with
  | current _ =>
      rw [carry_same rfl rfl]
      exact h.goes _ (.refl _) rfl rfl rfl
  | window _ hexpired => exact h.enter horderly hsettings rfl (.inr hexpired)
  | trial _ hexpired => exact h.enter horderly hsettings rfl (.inr hexpired)

/-- A call passes in a generation that is not over. -/
theorem Framed.board (h : Framed s now w) (hcurrent : w.traffic.breaker.isExpired now = false)
    {generation : UInt64} {d : Desk} (hd : Goes w.traffic.breaker d.breaker) :
    Framed s now (w.follow (w.traffic.board now generation d) now) := by
  rw [follow_same (t := w.traffic.board now generation d) rfl]
  refine ⟨h.began_le, fun hclosed => hd.expiry.trans (h.window (hd.state ▸ hclosed)),
    fun hhalf => hd.expiry.trans (h.trial (hd.state ▸ hhalf)), ?_, h.moves_le, ?_, ?_⟩
  · intro p hp
    rcases List.mem_cons.mp hp with rfl | hold
    · exact Nat.le_refl _
    · exact h.passes_le p hold
  · show ∀ p ∈ w.traffic.nextPass now generation :: w.traffic.passes, p.era = w.traffic.era →
      w.began ≤ p.since ∧ ∀ expiry ∈ d.breaker.expiry, p.since < expiry
    rw [hd.expiry]
    intro p hp hown
    rcases List.mem_cons.mp hp with rfl | hold
    · refine ⟨h.began_le, ?_⟩
      intro expiry hexpiry
      have hexpiry' : w.traffic.breaker.expiry = some expiry := hexpiry
      show now < expiry
      simpa [isExpired, hexpiry'] using hcurrent
    · exact h.own p hold hown
  · intro p hp hother
    rcases List.mem_cons.mp hp with rfl | hold
    · exact absurd rfl hother
    · exact h.other p hold hother

theorem Framed.tell (h : Framed s now w) (horderly : Orderly w.traffic)
    (hsettings : w.traffic.breaker.settings = s) {p : Pass} {success : Bool} {d : Desk}
    (hp : p ∈ w.traffic.afloat)
    (hd : w.traffic.breaker.Told now p.generation success d.breaker) :
    Framed s now (w.follow (w.traffic.tell now p success d) now) := by
  have hsettled : Framed s now (w.follow (w.traffic.settle p success) now) :=
    h.goes (w.traffic.settle p success) (.refl _) rfl rfl rfl
  have hchanges {state : CircuitState} (hd : d.breaker = w.traffic.breaker.enter state now)
      (hother : state ≠ w.traffic.breaker.state) :
      Framed s now (w.follow (w.traffic.tell now p success d) now) := by
    have henter := hsettled.enter (horderly.settle success hp) hsettings hd (.inl hother)
    have hera := era_le_carry (w.traffic.settle p success) now d
    rw [follow_traffic, follow_follow (t := w.traffic.settle p success) (Nat.le_refl _) hera]
      at henter
    exact henter
  have hgoes (hd : Goes w.traffic.breaker d.breaker) :
      Framed s now (w.follow (w.traffic.tell now p success d) now) := by
    rw [tell_goes p success now hd]
    exact h.goes { w.traffic.settle p success with desk := d } hd rfl rfl rfl
  generalize hb : d.breaker = b at hd
  cases hd with
  | stale _ => exact hgoes (.of_eq hb)
  | heard _ hears =>
      cases hears with
      | success _ => exact hgoes (.of_counts hb)
      | failure _ => exact hgoes (.of_counts hb)
      | unmoved _ => exact hgoes (.of_eq hb)
      | closes hstate _ => exact hchanges hb (by simp [hstate])
      | trips hstate => exact hchanges hb (by simp [hstate])
      | reopens hstate => exact hchanges hb (by simp [hstate])

/-- Where a call can pass, the change that is due has been made. -/
theorem Framed.isExpired_turn (h : Framed s now (w.turn now)) {generation : UInt64}
    (hcheck : (w.turn now).traffic.breaker.check = .admitted generation) :
    (w.turn now).traffic.breaker.isExpired now = false := by
  rcases (check_eq_admitted.mp hcheck).2 with hclosed | ⟨hhalf, _⟩
  · exact isExpired_refresh hclosed
  · simp only [isExpired, h.trial hhalf]

/-- What an event does to the frame, at an instant that is not before the last one. -/
theorem Framed.step (h : Framed s now w) (horderly : Orderly w.traffic)
    (hsettings : w.traffic.breaker.settings = s) {e : Event} (hle : now ≤ e.now) :
    Framed s e.now (w.step e) := by
  have hnow := h.later hle
  have hturn := hnow.turn horderly hsettings
  have horderly' : Orderly (w.turn e.now).traffic := orderly_kept.turn _ e.now horderly
  have hsettings' : (w.turn e.now).traffic.breaker.settings = s :=
    (refresh_settings w.traffic.breaker e.now).trans hsettings
  -- what follows the change that is due is followed from there
  have hbehind {t : Traffic} (hera : (w.traffic.turn e.now).era ≤ t.era)
      (hframed : Framed s e.now ((w.turn e.now).follow t e.now)) :
      Framed s e.now (w.follow t e.now) := by
    have hturned : w.traffic.era ≤ (w.traffic.turn e.now).era := era_le_carry _ _ _
    rw [← follow_follow hturned hera]
    exact hframed
  have hstep := step_stepped w.traffic e
  unfold Windowed.step
  generalize w.traffic.step e = t at hstep ⊢
  cases hstep with
  | idle => exact hnow.goes _ (.refl _) rfl rfl rfl
  | aside d hd =>
      exact hbehind (Nat.le_refl _)
        (hturn.goes { w.traffic.turn e.now with desk := d } (.of_eq hd) rfl rfl rfl)
  | board generation d hcheck hd =>
      exact hbehind (Nat.le_refl _) (hturn.board (hturn.isExpired_turn hcheck) (.of_counts hd))
  | strand generation d hcheck hd =>
      let passed := (w.traffic.turn e.now).board e.now generation d
      let stranded := passed.lose ((w.traffic.turn e.now).nextPass e.now generation)
      have hboard : Framed s e.now ((w.turn e.now).follow passed e.now) :=
        hturn.board (hturn.isExpired_turn hcheck) (.of_counts hd)
      have hlose := hboard.goes stranded (.refl _) rfl rfl rfl
      have hera : passed.era ≤ stranded.era := Nat.le_refl _
      rw [follow_follow (w := w.turn e.now) (t := passed) (Nat.le_refl _) hera] at hlose
      exact hbehind (Nat.le_refl _) hlose
  | tell p success d hp hd =>
      exact hbehind (era_le_carry ((w.traffic.turn e.now).settle p success) e.now d)
        (hturn.tell horderly' hsettings' hp hd)
  | lose p _ => exact hnow.goes (w.traffic.lose p) (.refl _) rfl rfl rfl

/-! ## Along a run -/

theorem framed_run (s : BreakerSettings) (start : Nat) (events : List Event) {now : Nat}
    (hclock : (start :: events.map (·.now)).Pairwise (· ≤ ·))
    (hnow : ∀ x ∈ start :: events.map (·.now), x ≤ now) : Framed s now (run s start events) := by
  -- the part before the last event is framed at the instant of that event
  induction events using List.reverseRecOn generalizing now with
  | nil => exact (framed_start s start).later (hnow start List.mem_cons_self)
  | append_singleton events e ih =>
      rw [List.map_append, ← List.cons_append, List.pairwise_append] at hclock
      obtain ⟨hbefore, _, hlast⟩ := hclock
      have hframed := ih hbefore (fun x hx => hlast x hx e.now (by simp))
      have horderly : Orderly (run s start events).traffic := by
        rw [run_traffic]
        exact orderly_run s start events
      have hsettings : (run s start events).traffic.breaker.settings = s := by
        rw [run_traffic]
        exact run_settings s start events
      rw [run_concat]
      exact (hframed.step horderly hsettings (Nat.le_refl _)).later (hnow e.now (by simp))

/-- The calls of the current generation are those that passed since it began, and since the state
changed last. -/
theorem Framed.own_iff (h : Framed s now w) (hmoved : Moved s w.traffic) {p : Pass}
    (hp : p ∈ w.traffic.passes) :
    p.era = w.traffic.era ↔ w.began ≤ p.since ∧ ∀ m ∈ w.traffic.moves, m.era ≤ p.era := by
  constructor
  · intro hown
    exact ⟨(h.own p hp hown).1, fun m hm => hown ▸ (hmoved.target m hm).1⟩
  · rintro ⟨hbegan, hmoves⟩
    by_contra hother
    rcases h.other p hp hother with hearly | ⟨m, hm, hlater⟩
    · exact absurd hbegan (Nat.not_le.mpr hearly)
    · exact absurd (hmoves m hm) (Nat.not_le.mpr hlater)

/-- A call in the window, at an instant: it passed since the window began and since the state
changed last, less than an interval ago. -/
structure Inside (s : BreakerSettings) (now : Nat) (w : Windowed) (p : Pass) : Prop where
  passed : p ∈ w.traffic.passes
  began : w.began ≤ p.since
  changes : ∀ m ∈ w.traffic.moves, m.era ≤ p.era ∧ m.time ≤ p.since
  since_le : p.since ≤ now
  recent : s.interval.isZero = false → now < p.since + s.interval.toNanos

/-- A closed circuit that is up to date is inside its window. -/
theorem Framed.lasts (h : Framed s now (w.turn now))
    (hclosed : (w.turn now).traffic.breaker.state = .closed)
    (hinterval : s.interval.isZero = false) : now < (w.turn now).began + s.interval.toNanos := by
  have hcurrent : (w.turn now).traffic.breaker.isExpired now = false := isExpired_refresh hclosed
  have hexpiry := h.window hclosed
  rw [windowEnd, if_neg (by simp [hinterval])] at hexpiry
  unfold isExpired at hcurrent
  rw [hexpiry] at hcurrent
  exact Nat.lt_of_not_le (of_decide_eq_false hcurrent)

theorem Framed.mem_passesIn (h : Framed s now (w.turn now))
    (hmoved : Moved s (w.turn now).traffic)
    (hclosed : (w.turn now).traffic.breaker.state = .closed) {p : Pass} :
    p ∈ (w.turn now).traffic.passesIn (w.turn now).traffic.era ↔ Inside s now (w.turn now) p := by
  constructor
  · intro hp
    obtain ⟨hpassed, howns⟩ := List.mem_filter.mp hp
    obtain ⟨hbegan, hmoves⟩ := (h.own_iff hmoved hpassed).mp (of_decide_eq_true howns)
    refine ⟨hpassed, hbegan, fun m hm => ⟨hmoves m hm, ?_⟩, h.passes_le p hpassed, ?_⟩
    · exact Nat.le_trans (h.moves_le m hm) hbegan
    · intro hinterval
      have hlasts := h.lasts hclosed hinterval
      omega
  · intro hinside
    have hmoves := fun m hm => (hinside.changes m hm).1
    exact List.mem_filter.mpr ⟨hinside.passed,
      decide_eq_true ((h.own_iff hmoved hinside.passed).mpr ⟨hinside.began, hmoves⟩)⟩

end Windowed

namespace Traffic

open Breaker

variable {s : BreakerSettings} {t : Traffic} {e : Event}

/-- The outcomes a generation has heard, with the calls they are of; the latest first. -/
def heard (t : Traffic) (era : Nat) : List Settlement :=
  t.settled.filter fun r => r.era = era ∧ r.pass.generation = .ofNat era

/-- What a generation has heard are the outcomes of its own calls, unless the numbers have come
round since one passed. -/
theorem Orderly.own_of_heard (h : Orderly t) {r : Settlement} (hr : r ∈ t.heard t.era) :
    r.pass ∈ t.passes ∧ (r.pass.era = t.era ∨ r.pass.era + UInt64.size ≤ t.era) := by
  obtain ⟨hsettled, hheard⟩ := List.mem_filter.mp hr
  have hpassed := h.mem_of_settled hsettled
  obtain ⟨hera, hgeneration⟩ := h.mem_passes r.pass hpassed
  refine ⟨hpassed, ?_⟩
  have hsame : UInt64.ofNat r.pass.era = .ofNat t.era :=
    hgeneration.symm.trans (of_decide_eq_true hheard).2
  have hmod : r.pass.era % UInt64.size = t.era % UInt64.size := by
    have hnat := congrArg UInt64.toNat hsame
    simpa using hnat
  -- two numbers that agree in 64 bits are the same, or that far apart
  rcases Nat.eq_or_lt_of_le hera with hown | hlater
  · exact .inl hown
  · refine .inr ?_
    unfold UInt64.size at hmod ⊢
    omega

/-- An outcome of a call of the current generation is heard by it. -/
theorem Orderly.heard_of_own (h : Orderly t) {r : Settlement} (hr : r ∈ t.settled)
    (hown : r.pass.era = t.era) : r ∈ t.heard t.era := by
  obtain ⟨hpass, hera⟩ := h.settled_le r hr
  have hgeneration := (h.mem_passes r.pass (h.mem_of_settled hr)).2
  refine List.mem_filter.mpr ⟨hr, decide_eq_true ⟨by omega, ?_⟩⟩
  rw [hgeneration, hown]

/-- The trip predicate is asked as a failure of the current generation has been counted. -/
theorem asked_counts {counts : Counts} (h : (t.effect e).asked = some counts) :
    ∃ p ∈ t.afloat, (t.turn e.now).breaker.state = .closed ∧
      p.generation = (t.turn e.now).breaker.generation ∧
      counts = (t.turn e.now).breaker.counts.failure := by
  obtain ⟨⟨p, outcome⟩, hclosing, hverdict⟩ := Option.bind_eq_some_iff.mp h
  obtain ⟨success, _, hasked⟩ := Option.bind_eq_some_iff.mp hverdict
  simp only [asked?, Option.ite_none_right_eq_some, Option.some.injEq] at hasked
  obtain ⟨⟨hcurrent, _, hstate⟩, hcounts⟩ := hasked
  exact ⟨p, mem_of_closing? hclosing, hstate, hcurrent, hcounts.symm⟩

/-- The counts it is asked about are those of the current generation, the failure included. -/
theorem Balanced.failure_tally (h : Balanced t) {p : Pass} (hstate : t.breaker.state = .closed)
    (hcurrent : p.generation = t.breaker.generation) :
    t.breaker.counts.failure =
      .tally (t.passesIn t.era).length (((t.settle p false).heard t.era).map (·.success)) := by
  have hheard : (t.settle p false).heardIn t.era = false :: t.heardIn t.era := by
    rw [heardIn_settle, if_pos (hcurrent.trans h.orderly.generation)]
  have hcounts := (h.accounts.failure hstate).counts_eq hstate (by decide)
  rw [← hheard] at hcounts
  exact hcounts

/-- What an event does to the counters of a closed circuit whose window is not over. -/
theorem step_of_window (hclosed : t.breaker.state = .closed) (hturn : t.turn e.now = t) :
    (t.step e).era = t.era ∧ t.breaker.counts.GoesOn (t.step e).breaker.counts ∨
      ∃ m, (t.step e).moves = m :: t.moves ∧ m.change.source = .closed ∧ m.time = e.now := by
  have hgoes {t' : Traffic} {counts : Counts} (hera : t'.era = t.era)
      (hcounts : t'.breaker.counts = counts) (hon : t.breaker.counts.GoesOn counts) :
      t'.era = t.era ∧ t.breaker.counts.GoesOn t'.breaker.counts :=
    ⟨hera, hcounts ▸ hon⟩
  have hstep := step_stepped t e
  generalize t.step e = t' at hstep ⊢
  cases hstep with
  | idle => exact .inl ⟨rfl, .same⟩
  | lose p _ => exact .inl ⟨rfl, .same⟩
  | aside d hd =>
      rw [hturn] at hd ⊢
      exact .inl (hgoes rfl (congrArg (·.counts) hd) .same)
  | board generation d _ hd =>
      rw [hturn] at hd ⊢
      exact .inl (hgoes rfl (congrArg (·.counts) hd) .request)
  | strand generation d _ hd =>
      rw [hturn] at hd ⊢
      exact .inl (hgoes rfl (congrArg (·.counts) hd) .request)
  | tell p success d _ hd =>
      rw [hturn] at hd ⊢
      have hcounted {counts : Counts} (hd : d.breaker = { t.breaker with counts })
          (hon : t.breaker.counts.GoesOn counts) :
          (t.tell e.now p success d).era = t.era ∧
            t.breaker.counts.GoesOn (t.tell e.now p success d).breaker.counts := by
        rw [tell_goes p success e.now (.of_counts hd)]
        exact hgoes rfl (congrArg (·.counts) hd) hon
      generalize hb : d.breaker = b at hd
      cases hd with
      | stale _ => exact .inl (hcounted hb .same)
      | heard _ hears =>
          cases hears with
          | success _ => exact .inl (hcounted hb .success)
          | failure _ => exact .inl (hcounted hb .failure)
          | unmoved _ => exact .inl (hcounted hb .same)
          | closes hstate _ => exact absurd (hclosed.symm.trans hstate) (by decide)
          | reopens hstate => exact absurd (hclosed.symm.trans hstate) (by decide)
          | trips _ =>
              have hother : CircuitState.opened ≠ (t.settle p false).breaker.state := by
                show CircuitState.opened ≠ t.breaker.state
                simp [hclosed]
              unfold tell
              rw [carry_enter (t := t.settle p false) hb, if_neg hother]
              exact .inr ⟨_, rfl, hclosed, rfl⟩

/-- **The rolling window.** On a clock that does not go back, each time the trip predicate is
asked the circuit is closed and its window is not over, and the counts it is asked about are the
tally of the calls of this window:

* these are the calls that passed since the window began, and since the state changed last, and so
  less than an interval ago;
* the outcomes counted are outcomes of these calls, unless a call has outlived `2 ^ 64`
  generations, and every outcome of these calls is counted.

What it would reply on other counts makes no difference. An event at a closed circuit lets the
counters go on, unless it changes the state or comes an interval or more after the window began;
if the interval is empty, only a change of the state ends a window. -/
theorem rolling_window (s : BreakerSettings) (start : Nat) (events : List Event) (e : Event)
    (hclock : (start :: (events ++ [e]).map (·.now)).Pairwise (· ≤ ·)) :
    let before := Windowed.run s start events
    let w := before.turn e.now
    (∀ counts, (before.traffic.effect e).asked = some counts → ∃ p ∈ w.traffic.afloat,
      let t := w.traffic.settle p false
      t.breaker.state = .closed ∧
        (s.interval.isZero = false → e.now < w.began + s.interval.toNanos) ∧
        counts = .tally (t.passesIn t.era).length ((t.heard t.era).map (·.success)) ∧
        (∀ q, q ∈ t.passesIn t.era ↔ w.Inside s e.now q) ∧
        (∀ r ∈ t.heard t.era,
          w.Inside s e.now r.pass ∨ r.pass.era + UInt64.size ≤ t.era) ∧
        ∀ r ∈ t.settled, w.Inside s e.now r.pass → r ∈ t.heard t.era) ∧
      (∀ trips, (∀ c ∈ (before.traffic.effect e).asked, trips c = e.callbacks.trips c) →
        before.traffic.step (e.withTrips trips) = before.traffic.step e) ∧
      (before.traffic.breaker.state = .closed →
        ((before.traffic.step e).era = before.traffic.era ∧
            before.traffic.breaker.counts.GoesOn (before.traffic.step e).breaker.counts) ∨
          (∃ m, (before.traffic.step e).moves = m :: before.traffic.moves ∧
            m.change.source = .closed ∧ m.time = e.now) ∨
          s.interval.isZero = false ∧ before.began + s.interval.toNanos ≤ e.now) := by
  have hclock' := hclock
  rw [List.map_append, ← List.cons_append, List.pairwise_append] at hclock'
  obtain ⟨hbefore, _, hlast⟩ := hclock'
  have hframed := Windowed.framed_run s start events hbefore
    fun x hx => hlast x hx e.now (by simp)
  have hbalanced := balanced_run s start events
  have hmoved := moved_run s start events
  rw [← Windowed.run_traffic] at hbalanced hmoved
  generalize Windowed.run s start events = before at hframed hbalanced hmoved
  have hturn := hframed.turn hbalanced.orderly hmoved.settings
  have hbalanced' : Balanced (before.turn e.now).traffic := hbalanced.turn e.now
  have hmoved' : Moved s (before.turn e.now).traffic := (moved_kept s).turn _ e.now hmoved
  refine ⟨fun counts hasked => ?_, fun trips htrips => step_withTrips htrips, fun hclosed => ?_⟩
  · obtain ⟨p, hp, hstate, hcurrent, rfl⟩ := asked_counts hasked
    have horderly := hbalanced'.orderly.settle false (p := p) hp
    have hwindow {q : Pass} := hturn.mem_passesIn hmoved' hstate (p := q)
    refine ⟨p, hp, hstate, hturn.lasts hstate, hbalanced'.failure_tally hstate hcurrent,
      fun q => hwindow, ?_, ?_⟩
    · intro r hr
      obtain ⟨hpassed, hera⟩ := horderly.own_of_heard hr
      exact hera.imp_left fun hown =>
        hwindow.mp (List.mem_filter.mpr ⟨hpassed, decide_eq_true hown⟩)
    · intro r hr hinside
      have hown := (List.mem_filter.mp (hwindow.mpr hinside)).2
      exact horderly.heard_of_own hr (of_decide_eq_true hown)
  · cases hexpired : before.traffic.breaker.isExpired e.now with
    | false =>
        have hcurrent : before.traffic.turn e.now = before.traffic :=
          turn_of_current (by simp [refresh, hexpired])
        exact (step_of_window hclosed hcurrent).imp_right .inl
    | true =>
        have hexpiry := hframed.window hclosed
        cases hinterval : s.interval.isZero with
        | true => simp [isExpired, hexpiry, windowEnd, hinterval] at hexpired
        | false =>
            have hdue : before.began + s.interval.toNanos ≤ e.now := by
              simpa [isExpired, hexpiry, windowEnd, hinterval, Clock.after] using hexpired
            exact .inr (.inr ⟨rfl, hdue⟩)

/-- An event under a predicate that holds of five failures. -/
def sparing (now : Nat) (act : Act) : Event :=
  (Event.plain now act).withTrips (TripRule.holds (.total 5))

/-- The second call begins a window, and the first one, of the window before, fails in it. -/
def windows : List Event :=
  [sparing 0 .enter, sparing 1_100_000_000 .enter, sparing 1_200_000_000 (.leave 0 .raises)]

/-- As the second call fails at the last instant of its window, the predicate sees this call and
no other. -/
theorem rolling_window_windows :
    let e := sparing 2_099_999_999 (.leave 1 .raises)
    let w := (Windowed.run rolling 0 windows).turn e.now
    (0 :: (windows ++ [e]).map (·.now)).Pairwise (· ≤ ·) ∧
      ((Windowed.run rolling 0 windows).traffic.effect e).asked = some (.tally 1 [false]) ∧
      w.Inside rolling e.now ⟨1, 1, 1, 1_100_000_000⟩ ∧ ¬w.Inside rolling e.now ⟨0, 0, 0, 0⟩ := by
  intro e w
  have hclock : (0 :: (windows ++ [e]).map (·.now)).Pairwise (· ≤ ·) := by decide
  have hasked : ((Windowed.run rolling 0 windows).traffic.effect e).asked =
      some (.tally 1 [false]) := by decide
  obtain ⟨p, _, _, _, _, hwindow, _⟩ := (rolling_window rolling 0 windows e hclock).1 _ hasked
  have hcalls : (w.traffic.settle p false).passesIn (w.traffic.settle p false).era =
      [⟨1, 1, 1, 1_100_000_000⟩] :=
    show w.traffic.passesIn w.traffic.era = _ by decide
  refine ⟨hclock, hasked, (hwindow _).mp ?_, fun hinside => ?_⟩
  · rw [hcalls]
    exact List.mem_singleton_self _
  · have hmem := (hwindow _).mpr hinside
    rw [hcalls] at hmem
    exact absurd hmem (by decide)

end Traffic

end Dialer
