import Dialer.Proofs.Breaker.OpenPeriod
import Dialer.Proofs.Breaker.Staleness

/-!
# Queries

A query for the counts does nothing. A query for the state is no pure read: it applies the change
that is due by time, so that the next operation finds it made. Both are looked at from the
operation that comes next:

* an operation comes to the same right behind a query (`step_glance`, `effect_glance`), and an
  earlier query changes nothing about a later one unless it begins a rolling window
  (`refresh_stages`);
* what an event comes to, for its caller, the callbacks and the breaker, is its `Effect`.
-/

namespace Dialer

namespace Breaker

/-! ## Time in two stages -/

/-- A generation that begins now is not over by now. -/
theorem enter_isExpired {b : Breaker} {state : CircuitState} {now : Nat}
    (hstate : state ≠ .opened) : (b.enter state now).isExpired now = false := by
  cases state with
  | opened => exact absurd rfl hstate
  | halfOpen => rfl
  | closed =>
      by_cases hzero : b.settings.interval.isZero = true
      · simp [isExpired, windowEnd, hzero]
      · have hlong : b.settings.interval.toNanos ≠ 0 := fun h => hzero (Duration.isZero_iff.mpr h)
        simp only [isExpired, enter_closed_expiry, windowEnd, if_neg hzero, Clock.after,
          decide_eq_false_iff_not]
        omega

theorem isExpired_later {b : Breaker} {now later : Nat} (hle : now ≤ later)
    (h : b.isExpired now = true) : b.isExpired later = true := by
  obtain ⟨settings, state, generation, counts, expiry⟩ := b
  cases expiry with
  | none => exact absurd h Bool.false_ne_true
  | some expiry => exact decide_eq_true (Nat.le_trans (of_decide_eq_true h) hle)

/-- At an instant the change that is due is made once. -/
theorem refresh_refresh (b : Breaker) (now : Nat) :
    (b.refresh now).1.refresh now = ((b.refresh now).1, []) := by
  have hsettled {r : Breaker} (h : r.isExpired now = false) : r.refresh now = (r, []) := by
    simp [refresh, h]
  have hrefreshed := refresh_cases b now
  generalize b.refresh now = r at hrefreshed ⊢
  obtain ⟨r, made⟩ := r
  cases hrefreshed with
  | current h =>
      rcases h with h | h
      · exact hsettled h
      · exact refresh_of_halfOpen h now
  | window _ _ => exact hsettled (enter_isExpired (by decide))
  | trial _ _ => exact hsettled (enter_isExpired (by decide))

/-- An earlier look at the clock finds nothing due, or leaves nothing to find, unless it begins a
rolling window that a later look would have begun later. -/
theorem refresh_stages {b : Breaker} {now later : Nat} (hle : now ≤ later)
    (hwindow : b.state = .closed → b.isExpired now = true → later = now) :
    b.refresh now = (b, []) ∨
      b.refresh later = b.refresh now ∧
        (b.refresh now).1.refresh later = ((b.refresh now).1, []) := by
  cases hexpired : b.isExpired now with
  | false => exact .inl (by simp [refresh, hexpired])
  | true =>
    have hexpired' := isExpired_later hle hexpired
    cases hstate : b.state with
    | halfOpen => exact .inl (refresh_of_halfOpen hstate now)
    | closed =>
        obtain rfl := hwindow hstate hexpired
        exact .inr ⟨rfl, refresh_refresh b later⟩
    | opened =>
        have hnow : b.refresh now = (b.enter .halfOpen now, [⟨.opened, .halfOpen⟩]) := by
          simp [refresh, hexpired, hstate]
        have hlater : b.refresh later = (b.enter .halfOpen later, [⟨.opened, .halfOpen⟩]) := by
          simp [refresh, hexpired', hstate]
        -- a half-open period has no end of its own, so it does not matter when it began
        rw [hnow, hlater]
        exact .inr ⟨rfl, refresh_of_halfOpen (enter_state b .halfOpen now) later⟩

theorem ask_refreshed (b : Breaker) (now : Nat) :
    ((b.refresh now).1.ask now).breaker = (b.ask now).breaker ∧
      ((b.refresh now).1.ask now).transitions = [] ∧
      ((b.refresh now).1.ask now).answer = (b.ask now).answer := by
  refine ⟨?_, ?_, ?_⟩
  · rw [ask_breaker, ask_breaker, refresh_refresh]
  · rw [ask_transitions, refresh_refresh]
  · rw [ask_answer, ask_answer, refresh_refresh]

theorem record_refreshed (b : Breaker) (now : Nat) (generation : UInt64) (success : Bool)
    (trips : Counts → Reply Bool) :
    let first := (b.refresh now).1.record now generation success trips
    let step := b.record now generation success trips
    first.breaker = step.breaker ∧ step.transitions = (b.refresh now).2 ++ first.transitions ∧
      first.answer = step.answer := by
  unfold record
  rw [refresh_refresh]
  dsimp only
  split
  · simp
  · split <;> simp

/-- The counts that the trip predicate is asked about, if it is asked. -/
def asked? (b : Breaker) (now : Nat) (generation : UInt64) (success : Bool) : Option Counts :=
  let b := (b.refresh now).1
  if generation = b.generation ∧ success = false ∧ b.state = .closed then
    some b.counts.failure
  else
    none

/-- The predicate matters to an outcome through its reply on these counts only. -/
theorem record_congr {b : Breaker} {now : Nat} {generation : UInt64} {success : Bool}
    {trips trips' : Counts → Reply Bool}
    (h : ∀ c ∈ b.asked? now generation success, trips c = trips' c) :
    b.record now generation success trips = b.record now generation success trips' := by
  unfold record
  dsimp only
  split
  · rfl
  · rename_i hcurrent
    cases success with
    | true => rfl
    | false =>
        rw [if_neg (by decide), if_neg (by decide)]
        cases hstate : (b.refresh now).1.state with
        | closed =>
            have hreply := h (b.refresh now).1.counts.failure
              (by simp [asked?, not_not.mp hcurrent, hstate])
            simp only [recordFailure, hstate, hreply]
        | opened => simp only [recordFailure, hstate]
        | halfOpen => simp only [recordFailure, hstate]

/-- And on these it does matter: a reply that raises is raised, and one that holds opens the
circuit. -/
theorem record_asked {b : Breaker} {now : Nat} {generation : UInt64} {success : Bool} {c : Counts}
    (h : b.asked? now generation success = some c) (trips : Counts → Reply Bool) :
    let step := b.record now generation success trips
    (trips c = .raised → step.answer = .raised) ∧
      (step.breaker.state = .opened ↔ trips c = .returned true) := by
  simp only [asked?, Option.ite_none_right_eq_some, Option.some.injEq] at h
  obtain ⟨⟨hcurrent, rfl, hstate⟩, rfl⟩ := h
  simp only [record, recordFailure, hcurrent, hstate, ne_eq, not_true, if_false,
    Bool.false_eq_true]
  rcases trips (b.refresh now).1.counts.failure with (_ | _) | _ <;> simp

end Breaker

/-! ## The desk behind a query -/

/-- A hook that always returns, or none. -/
def SteadyHook (hook : Option (Transition → Reply Unit)) : Prop :=
  ∀ f, hook = some f → ∀ change, f change = .returned ()

namespace Desk

variable {cb cb' : BreakerCallbacks}

/-- With such a hook every report is made in full. -/
theorem report_steady (h : SteadyHook cb.hook) (d : Desk) (made : List Transition) :
    report cb d made = (made.foldl (note cb) d, .returned ()) := by
  have hnotify (change : Transition) : cb.notify change = .returned () := by
    unfold BreakerCallbacks.notify
    cases hhook : cb.hook with
    | none => rfl
    | some f => exact h f hhook change
  exact Prod.ext (report_unbroken d (.inl hnotify)) (report_returned cb d h made)

theorem note_congr (h : cb'.hook = cb.hook) : note cb' = note cb := by
  funext d change
  simp [note, h]

/-- Notes depend on the name of the breaker only. -/
theorem foldl_note_with (d : Desk) (made : List Transition) {b b' : Breaker}
    (h : b.settings = b'.settings) :
    { made.foldl (note cb) { d with breaker := b } with breaker := b' } =
      made.foldl (note cb) { d with breaker := b' } := by
  induction made generalizing d with
  | nil => rfl
  | cons change rest ih =>
      have hnote : note cb { d with breaker := b' } change =
          { note cb { d with breaker := b } change with breaker := b' } := by
        simp [note, h]
      rw [List.foldl_cons, List.foldl_cons, hnote]
      exact ih (note cb { d with breaker := b } change)

theorem observe_steady (h : SteadyHook cb.hook) (d : Desk) (now : Nat) :
    (d.observe cb now).1 =
      (d.breaker.refresh now).2.foldl (note cb)
        { d with breaker := (d.breaker.refresh now).1 } := by
  rw [observe_desk, report_steady h]

theorem enter_steady (h : SteadyHook cb.hook) (d : Desk) (now : Nat) :
    d.enter cb now =
      let step := d.breaker.ask now
      let noted := step.transitions.foldl (note cb) { d with breaker := step.breaker }
      match step.answer with
      | .admitted generation => (noted, .passed generation)
      | .rejected error =>
        ({ noted with
            metrics := noted.metrics.tally (.breakerRejections noted.breaker.settings.name) },
          .rejected error) := by
  unfold enter
  cases hanswer : (d.breaker.ask now).answer <;> simp only [report_steady h, hanswer]

theorem record_steady (h : SteadyHook cb.hook) (d : Desk) (now : Nat) (generation : UInt64)
    (success : Bool) :
    d.record cb now generation success =
      let step := d.breaker.record now generation success cb.trips
      (step.transitions.foldl (note cb) { d with breaker := step.breaker }, step.answer) := by
  unfold record
  simp only [report_steady h]

/-- Who asks to pass right behind a query is answered as without it, and leaves the same desk. -/
theorem enter_observe (h : SteadyHook cb.hook) (hhook : cb'.hook = cb.hook) (d : Desk) (now : Nat) :
    (d.observe cb' now).1.enter cb now = d.enter cb now := by
  obtain ⟨hbreaker, hnone, hanswer⟩ := Breaker.ask_refreshed d.breaker now
  have hsettings : (d.breaker.refresh now).1.settings = (d.breaker.ask now).breaker.settings := by
    rw [Breaker.refresh_settings, Breaker.ask_settings]
  rw [observe_steady (hhook ▸ h), note_congr hhook, enter_steady h, enter_steady h,
    foldl_note_breaker]
  dsimp only
  rw [hnone, hanswer, hbreaker, List.foldl_nil, foldl_note_with d _ hsettings,
    Breaker.ask_transitions]

/-- So is who tells an outcome. -/
theorem record_observe (h : SteadyHook cb.hook) (hhook : cb'.hook = cb.hook) (d : Desk) (now : Nat)
    (generation : UInt64) (success : Bool) :
    (d.observe cb' now).1.record cb now generation success =
      d.record cb now generation success := by
  obtain ⟨hbreaker, hmade, hanswer⟩ :=
    Breaker.record_refreshed d.breaker now generation success cb.trips
  have hsettings : (d.breaker.refresh now).1.settings =
      (d.breaker.record now generation success cb.trips).breaker.settings := by
    rw [Breaker.refresh_settings, Traffic.record_settings]
  rw [observe_steady (hhook ▸ h), note_congr hhook, record_steady h, record_steady h,
    foldl_note_breaker]
  dsimp only
  rw [hanswer, hbreaker, hmade, List.foldl_append, foldl_note_with d _ hsettings]

/-- So does who ends a call, if the classifier has a verdict. -/
theorem leave_observe (h : SteadyHook cb.hook) (hhook : cb'.hook = cb.hook) (d : Desk) (now : Nat)
    (generation : UInt64) {outcome : Outcome} {success : Bool}
    (hverdict : cb.verdict? outcome = some success) :
    (d.observe cb' now).1.leave cb now generation outcome = d.leave cb now generation outcome := by
  have hrecord := record_observe h hhook d now generation
  cases outcome with
  | hangs => simp only [leave, hrecord]
  | raises => simp only [leave, hrecord]
  | returns result =>
      simp only [BreakerCallbacks.verdict?] at hverdict
      cases hreply : cb.succeeds (kindOf result) with
      | raised => simp [hreply] at hverdict
      | returned given => simp only [leave, hreply, hrecord]

/-- A classifier that raises keeps the breaker out of it. -/
theorem leave_of_no_verdict (d : Desk) (now : Nat) (generation : UInt64) {outcome : Outcome}
    (hverdict : cb.verdict? outcome = none) :
    d.leave cb now generation outcome = (d, .raised) := by
  cases outcome with
  | hangs => cases hverdict
  | raises => cases hverdict
  | returns result =>
      simp only [BreakerCallbacks.verdict?] at hverdict
      cases hreply : cb.succeeds (kindOf result) with
      | raised => simp only [leave, hreply]
      | returned given => simp [hreply] at hverdict

end Desk

namespace Event

/-- Someone asks for the state or the counts. -/
def isQuery (e : Event) : Bool :=
  match e.act with
  | .observe | .count => true
  | _ => false

/-- Someone asks for the state. -/
def asksState (e : Event) : Bool :=
  match e.act with
  | .observe => true
  | _ => false

/-- Someone asks for the state; of the callbacks only the hook has a part in it. -/
def glance (hook : Option (Transition → Reply Unit)) (now : Nat) : Event :=
  { Event.plain now .observe with callbacks := { (Event.plain now .observe).callbacks with hook } }

end Event

namespace Traffic

open Breaker

variable {hook : Option (Transition → Reply Unit)} {t t' : Traffic} {e : Event}

/-! ## The end of a call -/

theorem step_of_no_closing (hentry : e.act ≠ .enter) (hquery : e.isQuery = false)
    (h : t.closing? e = none) : t.step e = t := by
  refine step_of_rest hentry (fun hact => ?_) h
  simp [Event.isQuery, hact] at hquery

/-- What an event is, seen from the breaker. -/
inductive Errand (t : Traffic) (e : Event) : Prop
  | enters (hact : e.act = .enter)
  | tells {p : Pass} {outcome : Outcome} {success : Bool} (hentry : e.act ≠ .enter)
      (hclosing : t.closing? e = some (p, outcome))
      (hverdict : e.callbacks.verdict? outcome = some success)
  | loses {p : Pass} {outcome : Outcome} (hentry : e.act ≠ .enter)
      (hclosing : t.closing? e = some (p, outcome)) (hverdict : e.callbacks.verdict? outcome = none)
  | misses (hentry : e.act ≠ .enter) (hclosing : t.closing? e = none)

theorem errand (t : Traffic) (e : Event) : Errand t e := by
  by_cases hentry : e.act = .enter
  · exact .enters hentry
  · cases hclosing : t.closing? e with
    | none => exact .misses hentry hclosing
    | some ending =>
        obtain ⟨p, outcome⟩ := ending
        cases hverdict : e.callbacks.verdict? outcome with
        | none => exact .loses hentry hclosing hverdict
        | some success => exact .tells hentry hclosing hverdict

/-- Has the breaker a part in it? Queries apart. -/
def hears (t : Traffic) (e : Event) : Bool :=
  match e.act with
  | .enter => true
  | _ => (t.closing? e).any fun (_, outcome) => (e.callbacks.verdict? outcome).isSome

theorem closing?_congr (hafloat : t'.afloat = t.afloat) (e : Event) :
    t'.closing? e = t.closing? e := by
  unfold closing? call?
  rw [hafloat]

theorem hears_congr (hafloat : t'.afloat = t.afloat) (e : Event) : t'.hears e = t.hears e := by
  unfold hears
  rw [closing?_congr hafloat]

theorem hears_of_not_enter (hentry : e.act ≠ .enter) :
    t.hears e = (t.closing? e).any fun (_, outcome) => (e.callbacks.verdict? outcome).isSome := by
  unfold hears
  cases hact : e.act with
  | enter => exact absurd hact hentry
  | _ => rfl

theorem not_hears_of_query (hquery : e.isQuery = true) : t.hears e = false := by
  unfold Event.isQuery at hquery
  unfold hears closing?
  cases hact : e.act <;> simp [hact] at hquery ⊢

/-! ## What an event comes to -/

/-- What comes of an event, for the caller, for the callbacks and for the breaker. -/
structure Effect where
  /-- The answer to a call that asks to pass. -/
  entry : Option Desk.Entry
  /-- How a call in flight ends. -/
  ending : Option Desk.Ending
  /-- The counts that the trip predicate is asked about. -/
  asked : Option Counts
  /-- The desk behind the event, with what has been counted and reported so far, if the breaker
  has a part in it. -/
  desk : Option Desk
  /-- The changes of state so far, the latest first. -/
  changes : Option (List Transition)

/-- What an event comes to. -/
def effect (t : Traffic) (e : Event) : Effect where
  entry := t.answer? e
  ending := (t.closing? e).map fun (p, outcome) =>
    (t.desk.leave e.callbacks e.now p.generation outcome).2
  asked := (t.closing? e).bind fun (p, outcome) =>
    (e.callbacks.verdict? outcome).bind (t.breaker.asked? e.now p.generation ·)
  desk := if t.hears e then some (t.step e).desk else none
  changes := if t.hears e then some ((t.step e).moves.map (·.change)) else none

/-- What the events of a run come to that are no queries. -/
def effects (t : Traffic) : List Event → List Effect
  | [] => []
  | e :: rest =>
    if e.isQuery then (t.step e).effects rest else t.effect e :: (t.step e).effects rest

/-! ## An operation behind a query at its instant -/

/-- The traffic after someone has asked for the state. -/
def glance (t : Traffic) (hook : Option (Transition → Reply Unit)) (now : Nat) : Traffic :=
  t.observed (.glance hook now)

theorem turn_of_current {now : Nat} (h : t.breaker.refresh now = (t.breaker, [])) :
    t.turn now = t := by
  unfold turn
  rw [h, carry_same rfl rfl]

@[simp] theorem glance_breaker (now : Nat) :
    (t.glance hook now).breaker = (t.breaker.refresh now).1 :=
  Desk.observe_breaker _ _ _

theorem turn_glance (now : Nat) : (t.glance hook now).turn now = t.glance hook now :=
  turn_of_current (by rw [glance_breaker, refresh_refresh])

/-- Where only the hook has a part, other callbacks make no difference. -/
theorem observed_eq_glance (hsteady : SteadyHook hook) (hhook : e.callbacks.hook = hook) :
    t.observed e = t.glance hook e.now := by
  subst hhook
  have hsame : SteadyHook (Event.glance e.callbacks.hook e.now).callbacks.hook := hsteady
  unfold glance observed
  rw [Desk.observe_steady hsteady, Desk.observe_steady hsame]
  rfl

theorem tell_with {d : Desk} (h : d.breaker = t.breaker) (now : Nat) (p : Pass) (success : Bool)
    (d' : Desk) : { t with desk := d }.tell now p success d' = t.tell now p success d' := by
  obtain ⟨b, metrics, notices, inFlight⟩ := d
  obtain rfl : b = t.breaker := h
  rfl

/-- Who asks to pass right behind a query is answered as without it, and leaves the same desk. -/
theorem enter_glance (hsteady : SteadyHook e.callbacks.hook) :
    (t.glance e.callbacks.hook e.now).desk.enter e.callbacks e.now =
      t.desk.enter e.callbacks e.now := by
  have hhook : (Event.glance e.callbacks.hook e.now).callbacks.hook = e.callbacks.hook := rfl
  exact Desk.enter_observe hsteady hhook t.desk e.now

theorem record_glance (hsteady : SteadyHook e.callbacks.hook) (generation : UInt64)
    (success : Bool) :
    (t.glance e.callbacks.hook e.now).desk.record e.callbacks e.now generation success =
      t.desk.record e.callbacks e.now generation success := by
  have hhook : (Event.glance e.callbacks.hook e.now).callbacks.hook = e.callbacks.hook := rfl
  exact Desk.record_observe hsteady hhook t.desk e.now generation success

theorem leave_glance (hsteady : SteadyHook e.callbacks.hook) (generation : UInt64)
    {outcome : Outcome} {success : Bool} (hverdict : e.callbacks.verdict? outcome = some success) :
    (t.glance e.callbacks.hook e.now).desk.leave e.callbacks e.now generation outcome =
      t.desk.leave e.callbacks e.now generation outcome := by
  have hhook : (Event.glance e.callbacks.hook e.now).callbacks.hook = e.callbacks.hook := rfl
  exact Desk.leave_observe hsteady hhook t.desk e.now generation hverdict

/-- An operation comes to the same right behind a query. -/
theorem step_glance (hsteady : SteadyHook e.callbacks.hook) (hhears : t.hears e = true) :
    (t.glance e.callbacks.hook e.now).step e = t.step e := by
  have hturn : (t.glance e.callbacks.hook e.now).turn e.now = t.glance e.callbacks.hook e.now :=
    turn_glance e.now
  cases errand t e with
  | enters hact =>
      have hanswer := (ask_refreshed t.breaker e.now).2.2
      unfold step
      simp only [hact, hturn, glance_breaker, hanswer, enter_glance hsteady]
      rcases t.desk.enter e.callbacks e.now with ⟨d, entry⟩
      cases entry with
      | passed generation => rfl
      | rejected error => rfl
      | raised => cases (t.breaker.ask e.now).answer <;> rfl
  | @tells p outcome success hentry hclosing hverdict =>
      have hclosing' : (t.glance e.callbacks.hook e.now).closing? e = some (p, outcome) := hclosing
      rw [step_of_closing hclosing, step_of_closing hclosing', hverdict]
      dsimp only
      rw [hturn, record_glance hsteady]
      exact tell_with (t := t.turn e.now) (glance_breaker e.now) e.now p success _
  | loses hentry hclosing hverdict =>
      simp [hears_of_not_enter hentry, hclosing, hverdict] at hhears
  | misses hentry hclosing =>
      simp [hears_of_not_enter hentry, hclosing] at hhears

theorem effect_glance (hsteady : SteadyHook e.callbacks.hook) (hhears : t.hears e = true) :
    (t.glance e.callbacks.hook e.now).effect e = t.effect e := by
  have hsame : (t.glance e.callbacks.hook e.now).hears e = t.hears e := rfl
  have hcall : (t.glance e.callbacks.hook e.now).closing? e = t.closing? e := rfl
  have hasked (generation : UInt64) (success : Bool) :
      (t.glance e.callbacks.hook e.now).breaker.asked? e.now generation success =
        t.breaker.asked? e.now generation success := by
    simp only [asked?, glance_breaker, refresh_refresh]
  have hending : (t.closing? e).map (fun (p, outcome) =>
        ((t.glance e.callbacks.hook e.now).desk.leave e.callbacks e.now p.generation outcome).2) =
      (t.closing? e).map fun (p, outcome) =>
        (t.desk.leave e.callbacks e.now p.generation outcome).2 := by
    cases errand t e with
    | enters hact => simp [closing?, hact]
    | tells hentry hclosing hverdict => simp [hclosing, leave_glance hsteady _ hverdict]
    | loses hentry hclosing hverdict =>
        simp [hears_of_not_enter hentry, hclosing, hverdict] at hhears
    | misses hentry hclosing => simp [hclosing]
  unfold effect answer?
  simp only [hsame, hcall, step_glance hsteady hhears, hasked, hending, enter_glance hsteady]

/-- If the breaker has no part in it, what it comes to depends on the calls in flight only. -/
theorem effect_of_not_hears (hafloat : t'.afloat = t.afloat) (hhears : t.hears e = false) :
    t'.effect e = t.effect e := by
  unfold effect answer?
  rw [hears_congr hafloat, closing?_congr hafloat, hhears]
  cases errand t e with
  | enters hact => simp [hears, hact] at hhears
  | tells hentry hclosing hverdict =>
      simp [hears_of_not_enter hentry, hclosing, hverdict] at hhears
  | loses hentry hclosing hverdict => simp [hclosing, hverdict, Desk.leave_of_no_verdict]
  | misses hentry hclosing => simp [hclosing]

end Traffic

end Dialer
