import Dialer.Breaker.Rule
import Dialer.Proofs.Breaker.Queries

/-!
# Two runs, with queries and without

A run with queries between its calls is compared with the run without them. Behind an operation
the two agree (`Alike`); only the instants differ at which an open period was seen to be over.
Between operations the one may be ahead of the other, and they stay abreast: a query made of both
at the instant of the next operation would level them (`Abreast`). Hence each event comes to the
same in both, unless a query begins a rolling window earlier than the operation behind it would
(`queries_unnoticed`).

A query that does so can decide whether the circuit opens (`queries_noticed`).
-/

namespace Dialer.Traffic

open Breaker

variable {hook : Option (Transition → Reply Unit)} {t t' : Traffic} {e : Event}

/-! ## A query ahead of another -/

/-- The same but for the instants at which the state has changed. -/
structure Alike (t t' : Traffic) : Prop where
  desk : t'.desk = t.desk
  era : t'.era = t.era
  passes : t'.passes = t.passes
  afloat : t'.afloat = t.afloat
  settled : t'.settled = t.settled
  lost : t'.lost = t.lost
  moves : t'.moves.map (fun m => (m.change, m.era)) = t.moves.map fun m => (m.change, m.era)

namespace Alike

theorem rfl (t : Traffic) : Alike t t :=
  ⟨Eq.refl _, Eq.refl _, Eq.refl _, Eq.refl _, Eq.refl _, Eq.refl _, Eq.refl _⟩

theorem trans {t₁ t₂ t₃ : Traffic} (h : Alike t₁ t₂) (h' : Alike t₂ t₃) : Alike t₁ t₃ :=
  ⟨h'.desk.trans h.desk, h'.era.trans h.era, h'.passes.trans h.passes, h'.afloat.trans h.afloat,
    h'.settled.trans h.settled, h'.lost.trans h.lost, h'.moves.trans h.moves⟩

theorem with_desk (h : Alike t t') (d : Desk) : Alike { t with desk := d } { t' with desk := d } :=
  { h with desk := Eq.refl d }

/-- Taken over at different instants, even. -/
theorem carry (h : Alike t t') (now now' : Nat) (d : Desk) :
    Alike (t.carry now d) (t'.carry now' d) := by
  have hbreaker : t'.breaker = t.breaker := congrArg Desk.breaker h.desk
  refine ⟨Eq.refl d, ?_, h.passes, h.afloat, h.settled, h.lost, ?_⟩
  · simp only [Traffic.carry, hbreaker, h.era]
  · simp only [Traffic.carry, hbreaker, h.era]
    split
    · exact h.moves
    · rw [List.map_cons, List.map_cons, h.moves]

theorem turn (h : Alike t t') (now : Nat) : Alike (t.turn now) (t'.turn now) := by
  unfold Traffic.turn
  rw [show t'.breaker = t.breaker from congrArg Desk.breaker h.desk, h.desk]
  exact h.carry now now _

theorem nextPass (h : Alike t t') (now : Nat) (generation : UInt64) :
    t'.nextPass now generation = t.nextPass now generation := by
  simp only [Traffic.nextPass, h.passes, h.era]

theorem board (h : Alike t t') (now : Nat) (generation : UInt64) (d : Desk) :
    Alike (t.board now generation d) (t'.board now generation d) := by
  have hnext := h.nextPass now generation
  refine { h with desk := Eq.refl d, passes := ?_, afloat := ?_ }
  · simp only [Traffic.board, hnext, h.passes]
  · simp only [Traffic.board, hnext, h.afloat]

theorem settle (h : Alike t t') (p : Pass) (success : Bool) :
    Alike (t.settle p success) (t'.settle p success) := by
  refine { h with afloat := ?_, settled := ?_ }
  · simp only [Traffic.settle, h.afloat]
  · simp only [Traffic.settle, h.settled, h.era]

theorem tell (h : Alike t t') (now : Nat) (p : Pass) (success : Bool) (d : Desk) :
    Alike (t.tell now p success d) (t'.tell now p success d) :=
  (h.settle p success).carry now now d

theorem lose (h : Alike t t') (p : Pass) : Alike (t.lose p) (t'.lose p) := by
  refine { h with afloat := ?_, lost := ?_ }
  · simp only [Traffic.lose, h.afloat]
  · simp only [Traffic.lose, h.lost]

theorem glance (h : Alike t t') (hook : Option (Transition → Reply Unit)) (now : Nat) :
    Alike (t.glance hook now) (t'.glance hook now) := by
  unfold Traffic.glance observed
  rw [h.desk]
  exact (h.turn now).with_desk _

theorem step (h : Alike t t') (e : Event) (hquery : e.isQuery = false) :
    Alike (t.step e) (t'.step e) := by
  have hturn := h.turn e.now
  have hsame := closing?_congr h.afloat e
  cases errand t e with
  | enters hact =>
      unfold Traffic.step
      simp only [hact, Traffic.breaker, h.desk]
      rcases t.desk.enter e.callbacks e.now with ⟨d, entry⟩
      cases entry with
      | passed generation => exact hturn.board e.now generation d
      | rejected error => exact hturn.with_desk d
      | raised =>
          dsimp only
          cases (t.breaker.ask e.now).answer with
          | rejected error => exact hturn.with_desk d
          | admitted generation =>
              dsimp only
              rw [hturn.nextPass]
              exact (hturn.board e.now generation d).lose _
  | tells hentry hclosing hverdict =>
      rw [step_of_closing hclosing, step_of_closing (hsame.trans hclosing), hverdict, h.desk]
      exact hturn.tell _ _ _ _
  | loses hentry hclosing hverdict =>
      rw [step_of_closing hclosing, step_of_closing (hsame.trans hclosing), hverdict]
      exact h.lose _
  | misses hentry hclosing =>
      rw [step_of_no_closing hentry hquery hclosing,
        step_of_no_closing hentry hquery (hsame.trans hclosing)]
      exact h

theorem effect (h : Alike t t') (e : Event) (hquery : e.isQuery = false) :
    t'.effect e = t.effect e := by
  have hstep := h.step e hquery
  have hchanges : (t'.step e).moves.map (·.change) = (t.step e).moves.map (·.change) := by
    have hfirst := congrArg (List.map Prod.fst) hstep.moves
    rw [List.map_map, List.map_map] at hfirst
    exact hfirst
  unfold Traffic.effect answer?
  simp only [Traffic.breaker, closing?_congr h.afloat e, hears_congr h.afloat e, h.desk,
    hstep.desk, hchanges]

end Alike

/-- A query that finds nothing due does nothing. -/
theorem glance_of_current {now : Nat} (h : t.breaker.refresh now = (t.breaker, [])) :
    t.glance hook now = t := by
  have hdesk : (t.desk.observe (Event.glance hook now).callbacks now).1 = t.desk := by
    rw [Desk.observe_desk, h]
    rfl
  have hturn := turn_of_current h
  unfold glance observed
  show { t.turn now with desk := (t.desk.observe (Event.glance hook now).callbacks now).1 } = t
  rw [hturn, hdesk]

/-- A query ahead of another comes to nothing, unless it begins a rolling window early. -/
theorem glance_glance {now later : Nat} (hle : now ≤ later)
    (hwindow : t.breaker.state = .closed → t.breaker.isExpired now = true → later = now) :
    Alike (t.glance hook later) ((t.glance hook now).glance hook later) := by
  rcases refresh_stages hle hwindow with hnow | ⟨hsame, hdone⟩
  · rw [glance_of_current hnow]
    exact Alike.rfl _
  · have hcurrent :
        (t.glance hook now).breaker.refresh later = ((t.glance hook now).breaker, []) := by
      rw [glance_breaker]
      exact hdone
    have hdesk : (t.glance hook now).desk = (t.glance hook later).desk := by
      show (t.desk.observe _ now).1 = (t.desk.observe _ later).1
      rw [Desk.observe_desk, Desk.observe_desk, hsame]
      rfl
    rw [glance_of_current hcurrent]
    -- the two turn to the same breaker, at different instants
    have hturn := (Alike.rfl t).carry later now { t.desk with breaker := (t.breaker.refresh now).1 }
    have hlater : t.turn later =
        t.carry later { t.desk with breaker := (t.breaker.refresh now).1 } := by
      unfold turn
      rw [hsame]
    rw [← hlater] at hturn
    exact { hturn with desk := hdesk }

/-! ## Runs side by side -/

/-- The instant of the next event in which the breaker has a part; queries apart. -/
def nextHeard? (t : Traffic) : List Event → Option Nat
  | [] => none
  | e :: rest => if t.hears e then some e.now else (t.step e).nextHeard? rest

/-- No query begins a rolling window earlier than the operation behind it would have. A query
that finds a window over may come at the instant of that operation, or behind the last one. -/
def Spares (t : Traffic) : List Event → Prop
  | [] => True
  | e :: rest =>
    (e.asksState = true → t.breaker.state = .closed → t.breaker.isExpired e.now = true →
      ∀ later ∈ (t.step e).nextHeard? rest, later = e.now) ∧
      (t.step e).Spares rest

instance Spares.decidable : (t : Traffic) → (events : List Event) → Decidable (t.Spares events)
  | _, [] => inferInstanceAs (Decidable True)
  | t, e :: rest =>
    have := Spares.decidable (t.step e) rest
    inferInstanceAs (Decidable ((e.asksState = true → t.breaker.state = .closed →
      t.breaker.isExpired e.now = true → ∀ later ∈ (t.step e).nextHeard? rest, later = e.now) ∧
      (t.step e).Spares rest))

/-- The one run has the calls of the other in flight, and a query made of both at a given instant
would level them. -/
structure Abreast (hook : Option (Transition → Reply Unit)) (instant : Option Nat)
    (t t' : Traffic) : Prop where
  afloat : t'.afloat = t.afloat
  level : ∀ now ∈ instant, Alike (t.glance hook now) (t'.glance hook now)

theorem Alike.abreast (h : Alike t t') (hook : Option (Transition → Reply Unit))
    (instant : Option Nat) : Abreast hook instant t t' :=
  ⟨h.afloat, fun now _ => h.glance hook now⟩

theorem mem_of_nextHeard? {events : List Event} {now : Nat} (h : t.nextHeard? events = some now) :
    ∃ e ∈ events, e.now = now := by
  induction events generalizing t with
  | nil => cases h
  | cons e rest ih =>
      unfold nextHeard? at h
      cases hhears : t.hears e with
      | true =>
          simp only [hhears, if_true, Option.some.injEq] at h
          exact ⟨e, List.mem_cons_self, h⟩
      | false =>
          simp only [hhears, Bool.false_eq_true, if_false] at h
          obtain ⟨e', hmem, hnow⟩ := ih h
          exact ⟨e', List.mem_cons_of_mem e hmem, hnow⟩

/-- A query moves only the one run, and leaves it abreast of the other. -/
theorem Abreast.glance {instant : Option Nat} (h : Abreast hook instant t t') {now : Nat}
    (hlater : ∀ later ∈ instant, now ≤ later)
    (hwindow : t'.breaker.state = .closed → t'.breaker.isExpired now = true →
      ∀ later ∈ instant, later = now) : Abreast hook instant t (t'.glance hook now) where
  afloat := h.afloat
  level later hmem := (h.level later hmem).trans
    (glance_glance (hlater later hmem) fun hstate hexpired => hwindow hstate hexpired later hmem)

/-- The breaker has no part in it, so neither has the instant. -/
theorem glance_lose (t : Traffic) (now : Nat) (p : Pass) :
    (t.lose p).glance hook now = (t.glance hook now).lose p :=
  rfl

theorem Abreast.step_of_not_hears {instant : Option Nat} (h : Abreast hook instant t t')
    (hquery : e.isQuery = false) (hhears : t.hears e = false) :
    Abreast hook instant (t.step e) (t'.step e) := by
  have hclosing' := closing?_congr h.afloat e
  cases errand t e with
  | enters hact => simp [hears, hact] at hhears
  | tells hentry hclosing hverdict =>
      simp [hears_of_not_enter hentry, hclosing, hverdict] at hhears
  | @loses p outcome hentry hclosing hverdict =>
      rw [step_of_closing hclosing, step_of_closing (hclosing'.trans hclosing), hverdict]
      refine ⟨?_, fun now hmem => ?_⟩
      · simp only [lose, h.afloat]
      · rw [glance_lose, glance_lose]
        exact (h.level now hmem).lose p
  | misses hentry hclosing =>
      rw [step_of_no_closing hentry hquery hclosing,
        step_of_no_closing hentry hquery (hclosing'.trans hclosing)]
      exact h

/-- The operation that comes next comes to the same in both runs, and levels them. -/
theorem Abreast.step_of_hears (hsteady : SteadyHook e.callbacks.hook) (hhears : t.hears e = true)
    (hquery : e.isQuery = false) (h : Abreast e.callbacks.hook (some e.now) t t') :
    t'.effect e = t.effect e ∧ Alike (t.step e) (t'.step e) := by
  have hlevel := h.level e.now rfl
  have hhears' : t'.hears e = true := (hears_congr hlevel.afloat e).trans hhears
  rw [← effect_glance hsteady hhears, ← effect_glance hsteady hhears', ← step_glance hsteady hhears,
    ← step_glance hsteady hhears']
  exact ⟨hlevel.effect e hquery, hlevel.step e hquery⟩

/-- Runs that are abreast come to the same, with queries in the one and without in the other. -/
theorem Abreast.effects {events : List Event} (hsteady : SteadyHook hook)
    (hhook : ∀ e ∈ events, e.callbacks.hook = hook) (hsorted : events.Pairwise (·.now ≤ ·.now))
    (hspares : t'.Spares events) (h : Abreast hook (t'.nextHeard? events) t t') :
    t'.effects events = t.effects (events.filter fun e => !e.isQuery) := by
  -- the runs are abreast at the next operation that the breaker hears, whatever comes before it
  induction events generalizing t t' with
  | nil => rfl
  | cons e rest ih =>
      obtain ⟨hfirst, hrest⟩ := List.pairwise_cons.mp hsorted
      obtain ⟨hwindow, hspares⟩ := hspares
      have hhook' : ∀ e' ∈ rest, e'.callbacks.hook = hook := fun e' he' =>
        hhook e' (List.mem_cons_of_mem e he')
      have hown := hhook e List.mem_cons_self
      cases hquery : e.isQuery with
      | true =>
          have hnext : t'.nextHeard? (e :: rest) = (t'.step e).nextHeard? rest := by
            simp [nextHeard?, not_hears_of_query hquery]
          rw [hnext] at h
          simp only [Traffic.effects, hquery, if_true, List.filter_cons, Bool.not_true,
            Bool.false_eq_true, if_false]
          refine ih hhook' hrest hspares ?_
          cases hact : e.act with
          | enter => simp [Event.isQuery, hact] at hquery
          | leave number outcome => simp [Event.isQuery, hact] at hquery
          | drop number => simp [Event.isQuery, hact] at hquery
          | count =>
              have hstep : t'.step e = t' := by simp [step, hact]
              rwa [hstep] at h ⊢
          | observe =>
              have hstep : t'.step e = t'.glance hook e.now :=
                (step_of_observe hact).trans (observed_eq_glance hsteady hown)
              have hwindow := hwindow (by simp [Event.asksState, hact])
              rw [hstep] at h hwindow ⊢
              refine h.glance ?_ hwindow
              intro later hmem
              obtain ⟨e', he', rfl⟩ := mem_of_nextHeard? hmem
              exact hfirst e' he'
      | false =>
          simp only [Traffic.effects, hquery, List.filter_cons, Bool.not_false, if_true,
            Bool.false_eq_true, if_false]
          subst hown
          cases hhears : t'.hears e with
          | true =>
              have hsame : t.hears e = true := (hears_congr h.afloat e).symm.trans hhears
              simp only [nextHeard?, hhears, if_true] at h
              obtain ⟨heffect, halike⟩ := h.step_of_hears hsteady hsame hquery
              rw [heffect, ih hhook' hrest hspares (halike.abreast _ _)]
          | false =>
              have hsame : t.hears e = false := (hears_congr h.afloat e).symm.trans hhears
              simp only [nextHeard?, hhears, Bool.false_eq_true, if_false] at h
              rw [effect_of_not_hears h.afloat hsame,
                ih hhook' hrest hspares (h.step_of_not_hears hquery hsame)]

/-! ## Endless windows -/

/-- No time ends the closed state. -/
def Endless (b : Breaker) : Prop :=
  b.settings.interval.isZero = true ∧ (b.state = .closed → b.expiry = none)

theorem Endless.goes {b b' : Breaker} (h : Endless b) (hgoes : Goes b b') : Endless b' := by
  unfold Endless
  rw [hgoes.settings, hgoes.state, hgoes.expiry]
  exact h

theorem Endless.goesOrEnters {b b' : Breaker} {now : Nat} (h : Endless b)
    (hgoes : GoesOrEnters now b b') : Endless b' := by
  rcases hgoes with hgoes | ⟨state, _, rfl⟩
  · exact h.goes hgoes
  · refine ⟨h.1, ?_⟩
    rintro rfl
    simp [windowEnd, h.1]

theorem endless_kept : Kept fun t => Endless t.breaker where
  turn t now h := h.goesOrEnters (refresh_cases t.breaker now).goesOrEnters
  aside _ _ hd h := h.goes (.of_eq hd)
  board _ _ _ _ _ hd h := h.goes (.of_counts hd)
  tell _ _ _ _ _ _ hd h := h.goesOrEnters hd.goesOrEnters
  lose _ _ _ h := h

/-- There are no windows that a query could begin. -/
theorem Endless.spares (h : Endless t.breaker) (events : List Event) : t.Spares events := by
  induction events generalizing t with
  | nil => trivial
  | cons e rest ih =>
      refine ⟨fun _ hclosed hexpired => ?_, ih (endless_kept.step t e h)⟩
      simp [isExpired, h.2 hclosed] at hexpired

/-- A call fails behind a window of a second, and another asks to pass behind the open period; the
state is asked for early in the window, as the call begins, and when the open period is over. -/
def watched : List Event :=
  [.plain 500_000_000 .observe, .plain 1_500_000_000 .observe, .plain 1_500_000_000 .enter,
    .plain 1_600_000_000 (.leave 0 .raises), .plain 12_000_000_000 .observe,
    .plain 12_500_000_000 .enter]

/-- Failures in windows of a second, of which two open the circuit, and one more call. -/
def failing : List Event :=
  let callbacks := { (Event.plain 0 .enter).callbacks with trips := TripRule.holds (.total 2) }
  [⟨1_500_000_000, callbacks, .enter⟩, ⟨1_500_000_000, callbacks, .leave 0 .raises⟩,
    ⟨2_200_000_000, callbacks, .enter⟩, ⟨2_200_000_000, callbacks, .leave 1 .raises⟩,
    ⟨2_300_000_000, callbacks, .enter⟩]

/-- Something happens to a circuit whose open period is over, and the hook raises. -/
def startling (act : Act) : Event :=
  { Event.plain 20_000_000_000 act with
    callbacks := { (Event.plain 0 act).callbacks with hook := some fun _ => .raised } }

end Dialer.Traffic
