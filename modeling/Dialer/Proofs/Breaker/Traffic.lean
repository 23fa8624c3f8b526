import Dialer.Proofs.Breaker.Operations

/-!
# Traffic at a desk

A run of a desk: any number of calls, which begin and end in any order, and queries between
them. `Traffic` is a desk with a record of what has happened at it; `Traffic.step` has the desk
do one thing and takes down what came of it, and `Traffic.run` is a run from a new breaker. The
record has no influence on the desk.

Each event brings its own callbacks, so a predicate, a classifier or a hook may answer one way
now and another way later, and may raise at any one of its invocations.

Generations are numbered without bound here (`Traffic.era`), while the breaker counts them in
64 bits.

The one inversion of a step is `step_stepped`; whatever the five elementary changes keep is kept
by every run (`Kept.run`).
-/

namespace Dialer

/-- A call that was let pass. -/
structure Pass where
  /-- How many calls had passed before it. -/
  number : Nat
  /-- The number of the generation it was let pass in. -/
  era : Nat
  /-- That generation as the breaker gave it out. -/
  generation : UInt64
  /-- When it was let pass. -/
  since : Nat
deriving DecidableEq

/-- The outcome of a call, as the breaker was told it. -/
structure Settlement where
  pass : Pass
  success : Bool
  /-- The number of the generation that was current then. -/
  era : Nat
deriving DecidableEq

/-- A change of the circuit's state. -/
structure Move where
  change : Transition
  /-- The number of the generation that began with it. -/
  era : Nat
  time : Nat
deriving DecidableEq

/-- What can happen at a desk. -/
inductive Act where
  /-- A call asks to pass. -/
  | enter
  /-- A call in flight ends, by itself or by an exception. -/
  | leave (number : Nat) (outcome : Outcome)
  /-- A call in flight is dropped. -/
  | drop (number : Nat)
  /-- Someone asks for the state. -/
  | observe
  /-- Someone asks for the counts. -/
  | count

/-- Something that happens at an instant, with the callbacks as they are then. -/
structure Event where
  now : Nat
  callbacks : BreakerCallbacks
  act : Act

/-- The classifier and the hook return normally. -/
structure Event.Calm (e : Event) : Prop where
  hook : ∀ hook, e.callbacks.hook = some hook → ∀ t, hook t = .returned ()
  classifier : ∀ kind, e.callbacks.succeeds kind ≠ .raised

/-- A calm classifier has a verdict on every call. -/
theorem Event.Calm.verdict {e : Event} (h : e.Calm) (outcome : Outcome) :
    e.callbacks.verdict? outcome ≠ none := by
  cases outcome with
  | hangs => exact Option.some_ne_none _
  | raises => exact Option.some_ne_none _
  | returns result =>
      unfold BreakerCallbacks.verdict?
      have hreturns := h.classifier (Desk.kindOf result)
      cases hreply : e.callbacks.succeeds (Desk.kindOf result) with
      | returned success => simp [hreply]
      | raised => exact absurd hreply hreturns

/-- A calm hook lets the breaker's answer stand. -/
theorem Event.Calm.entry {e : Event} (h : e.Calm) (d : Desk) :
    (d.enter e.callbacks e.now).2 = match (d.breaker.ask e.now).answer with
      | .admitted generation => .passed generation
      | .rejected error => .rejected error :=
  Desk.enter_entry_of_report _ _ _ (Desk.report_returned _ _ h.hook _)

/-- An event under plain callbacks: every failure trips, errors are failures, and there is no
hook. -/
def Event.plain (now : Nat) (act : Act) : Event :=
  ⟨now, ⟨fun _ => .returned true, fun kind => .returned (BreakerCallbacks.countsAsSuccess kind),
    none⟩, act⟩

theorem Event.calm_plain (now : Nat) (act : Act) : (Event.plain now act).Calm where
  hook _ h := absurd h (by simp [Event.plain])
  classifier _ := by simp [Event.plain]

/-- A desk with the record of its calls; every list has the latest first. -/
structure Traffic where
  desk : Desk
  /-- The number of the current generation. -/
  era : Nat
  /-- The calls that were let pass. -/
  passes : List Pass
  /-- Those of them that are in flight. -/
  afloat : List Pass
  /-- The outcomes the breaker was told. -/
  settled : List Settlement
  /-- The calls that ended without the breaker being told. -/
  lost : List Pass
  /-- The changes of the circuit's state. -/
  moves : List Move

namespace Traffic

/-- The breaker of the desk. -/
abbrev breaker (t : Traffic) : Breaker :=
  t.desk.breaker

/-- Nothing has happened at a new breaker. -/
def start (s : BreakerSettings) (now : Nat) : Traffic :=
  ⟨.make s now, 0, [], [], [], [], []⟩

/-- Takes over what an operation made of the desk: how many generations it has begun, and
whether the state is another. -/
def carry (t : Traffic) (now : Nat) (d : Desk) : Traffic :=
  let era := t.era + (d.breaker.generation - t.breaker.generation).toNat
  { t with
    desk := d
    era
    moves :=
      if d.breaker.state = t.breaker.state then t.moves
      else ⟨⟨t.breaker.state, d.breaker.state⟩, era, now⟩ :: t.moves }

/-- Applies the change that is due by time. -/
def turn (t : Traffic) (now : Nat) : Traffic :=
  t.carry now { t.desk with breaker := (t.breaker.refresh now).1 }

/-- The next call to pass. -/
def nextPass (t : Traffic) (now : Nat) (generation : UInt64) : Pass :=
  ⟨t.passes.length, t.era, generation, now⟩

/-- A call passes. -/
def board (t : Traffic) (now : Nat) (generation : UInt64) (d : Desk) : Traffic :=
  { t with
    desk := d
    passes := t.nextPass now generation :: t.passes
    afloat := t.nextPass now generation :: t.afloat }

/-- The outcome of a call in flight is put down. -/
def settle (t : Traffic) (p : Pass) (success : Bool) : Traffic :=
  { t with
    afloat := t.afloat.erase p
    settled := ⟨p, success, t.era⟩ :: t.settled }

/-- The breaker is told the outcome of a call in flight. -/
def tell (t : Traffic) (now : Nat) (p : Pass) (success : Bool) (d : Desk) : Traffic :=
  (t.settle p success).carry now d

/-- A call in flight ends, and the breaker is not told. -/
def lose (t : Traffic) (p : Pass) : Traffic :=
  { t with
    afloat := t.afloat.erase p
    lost := p :: t.lost }

/-- The call in flight of a number. -/
def call? (t : Traffic) (number : Nat) : Option Pass :=
  t.afloat.find? (·.number == number)

/-- One event. A call that was admitted while the hook raised has no one left to tell its
outcome, and a classifier that raises does so before the breaker is told. -/
def step (t : Traffic) (e : Event) : Traffic :=
  match e.act with
  | .enter =>
    match t.desk.enter e.callbacks e.now with
    | (d, .passed generation) => (t.turn e.now).board e.now generation d
    | (d, .rejected _) => { t.turn e.now with desk := d }
    | (d, .raised) =>
      match (t.breaker.ask e.now).answer with
      | .admitted generation =>
        ((t.turn e.now).board e.now generation d).lose ((t.turn e.now).nextPass e.now generation)
      | .rejected _ => { t.turn e.now with desk := d }
  | .leave number outcome =>
    match t.call? number with
    | none => t
    | some p =>
      let d := (t.desk.leave e.callbacks e.now p.generation outcome).1
      match e.callbacks.verdict? outcome with
      | some success => (t.turn e.now).tell e.now p success d
      | none => { t.lose p with desk := d }
  | .drop number =>
    match t.call? number with
    | none => t
    | some p =>
      (t.turn e.now).tell e.now p false (t.desk.record e.callbacks e.now p.generation false).1
  | .observe => { t.turn e.now with desk := (t.desk.observe e.callbacks e.now).1 }
  | .count => t

/-- Events, one after the other. -/
def after (t : Traffic) (events : List Event) : Traffic :=
  events.foldl step t

/-- A run from a new breaker. -/
def run (s : BreakerSettings) (start : Nat) (events : List Event) : Traffic :=
  (Traffic.start s start).after events

/-- What a call that asks to pass is answered. -/
def answer? (t : Traffic) (e : Event) : Option Desk.Entry :=
  match e.act with
  | .enter => some (t.desk.enter e.callbacks e.now).2
  | _ => none

/-- The answers to all calls of a run, in their order. -/
def answers (t : Traffic) : List Event → List Desk.Entry
  | [] => []
  | e :: rest => (t.answer? e).toList ++ (t.step e).answers rest

@[simp] theorem after_concat (t : Traffic) (events : List Event) (e : Event) :
    t.after (events ++ [e]) = (t.after events).step e := by
  simp [after]

theorem answers_concat (t : Traffic) (events : List Event) (e : Event) :
    t.answers (events ++ [e]) = t.answers events ++ ((t.after events).answer? e).toList := by
  induction events generalizing t with
  | nil => simp [answers, after]
  | cons first rest ih =>
      simp only [List.cons_append, answers, ih, List.append_assoc]
      rfl

/-! ## The record of one generation -/

/-- The calls that passed in a generation. -/
def passesIn (t : Traffic) (era : Nat) : List Pass :=
  t.passes.filter (·.era = era)

/-- The calls of a generation that are in flight. -/
def afloatIn (t : Traffic) (era : Nat) : List Pass :=
  t.afloat.filter (·.era = era)

/-- The calls of a generation that ended without the breaker being told. -/
def lostIn (t : Traffic) (era : Nat) : List Pass :=
  t.lost.filter (·.era = era)

/-- The outcomes recorded for the calls of a generation, the latest first. -/
def outcomesIn (t : Traffic) (era : Nat) : List Bool :=
  (t.settled.filter (·.pass.era = era)).map (·.success)

/-! ## What one event comes to -/

/-- An operation that begins no generation and keeps the state. -/
theorem carry_same {t : Traffic} {d : Desk} (hgen : d.breaker.generation = t.breaker.generation)
    (hstate : d.breaker.state = t.breaker.state) (now : Nat) :
    t.carry now d = { t with desk := d } := by
  have hzero : (d.breaker.generation - t.breaker.generation).toNat = 0 := by
    rw [hgen, UInt64.sub_self]
    rfl
  unfold carry
  simp only [hzero, hstate, if_true, Nat.add_zero]

/-- An operation that begins a generation. -/
theorem carry_enter {t : Traffic} {d : Desk} {state : CircuitState} {now : Nat}
    (hd : d.breaker = t.breaker.enter state now) :
    t.carry now d =
      { t with
        desk := d
        era := t.era + 1
        moves :=
          if state = t.breaker.state then t.moves
          else ⟨⟨t.breaker.state, state⟩, t.era + 1, now⟩ :: t.moves } := by
  have hone : (t.breaker.generation + 1 - t.breaker.generation).toNat = 1 := by
    rw [UInt64.add_comm, UInt64.add_sub_cancel]
    rfl
  unfold carry
  rw [hd]
  simp only [Breaker.enter_generation, Breaker.enter_state, hone]

/-- The breaker after the passing of time. -/
@[simp] theorem turn_breaker (t : Traffic) (now : Nat) :
    (t.turn now).breaker = (t.breaker.refresh now).1 :=
  rfl

/-- Time does nothing to a half-open circuit. -/
theorem turn_of_halfOpen {t : Traffic} (h : t.breaker.state = .halfOpen) (now : Nat) :
    t.turn now = t := by
  unfold turn
  rw [Breaker.refresh_of_halfOpen h, carry_same rfl rfl]

/-- The call in flight that an event ends, and how. A call that is dropped never ends by
itself. -/
def closing? (t : Traffic) (e : Event) : Option (Pass × Outcome) :=
  match e.act with
  | .leave number outcome => (t.call? number).map (·, outcome)
  | .drop number => (t.call? number).map (·, .hangs)
  | _ => none

theorem mem_of_call? {t : Traffic} {number : Nat} {p : Pass} (h : t.call? number = some p) :
    p ∈ t.afloat :=
  List.mem_of_find?_eq_some h

theorem number_of_call? {t : Traffic} {number : Nat} {p : Pass}
    (h : t.call? number = some p) : p.number = number := by
  simpa using List.find?_some h

section Forms

variable {t : Traffic} {e : Event} {p : Pass} {outcome : Outcome}

theorem closing?_cases (h : t.closing? e = some (p, outcome)) :
    t.call? p.number = some p ∧
      (e.act = .leave p.number outcome ∨ e.act = .drop p.number ∧ outcome = .hangs) := by
  cases hact : e.act with
  | enter => simp [closing?, hact] at h
  | observe => simp [closing?, hact] at h
  | count => simp [closing?, hact] at h
  | leave number given =>
      simp only [closing?, hact, Option.map_eq_some_iff, Prod.mk.injEq] at h
      obtain ⟨p, hcall, rfl, rfl⟩ := h
      rw [number_of_call? hcall]
      exact ⟨hcall, .inl rfl⟩
  | drop number =>
      simp only [closing?, hact, Option.map_eq_some_iff, Prod.mk.injEq] at h
      obtain ⟨p, hcall, rfl, rfl⟩ := h
      rw [number_of_call? hcall]
      exact ⟨hcall, .inr ⟨rfl, rfl⟩⟩

theorem mem_of_closing? (h : t.closing? e = some (p, outcome)) : p ∈ t.afloat :=
  mem_of_call? (closing?_cases h).1

/-- The breaker is told how a call ends, unless the classifier raises. -/
theorem step_of_closing (h : t.closing? e = some (p, outcome)) :
    t.step e =
      match e.callbacks.verdict? outcome with
      | some success => (t.turn e.now).tell e.now p success
          (t.desk.record e.callbacks e.now p.generation success).1
      | none => t.lose p := by
  obtain ⟨hcall, hact | ⟨hact, rfl⟩⟩ := closing?_cases h
  · have hdesk := Desk.leave_desk e.callbacks t.desk e.now p.generation outcome
    unfold step
    simp only [hact, hcall, hdesk]
    cases e.callbacks.verdict? outcome <;> rfl
  · unfold step
    simp only [hact, hcall]
    rfl

theorem step_of_observe (hact : e.act = .observe) :
    t.step e = { t.turn e.now with desk := (t.desk.observe e.callbacks e.now).1 } := by
  unfold step
  rw [hact]

/-- To ask for the counts, or to end a call that is not in flight, is nothing. -/
theorem step_of_rest (hentry : e.act ≠ .enter) (hobserve : e.act ≠ .observe)
    (h : t.closing? e = none) : t.step e = t := by
  unfold step
  cases hact : e.act with
  | enter => exact absurd hact hentry
  | observe => exact absurd hact hobserve
  | count => rfl
  | leave number outcome =>
      simp only [closing?, hact, Option.map_eq_none_iff] at h
      simp only [h]
  | drop number =>
      simp only [closing?, hact, Option.map_eq_none_iff] at h
      simp only [h]

theorem answer?_of_ne (hentry : e.act ≠ .enter) : t.answer? e = none := by
  cases hact : e.act with
  | enter => exact absurd hact hentry
  | _ => simp [answer?, hact]

theorem act_ne_of_closing (h : t.closing? e = some (p, outcome)) : e.act ≠ .enter := by
  obtain ⟨-, hact | ⟨hact, -⟩⟩ := closing?_cases h
  · rw [hact]
    exact Act.noConfusion
  · rw [hact]
    exact Act.noConfusion

variable (t e)

/-- What an event can be: a call asks to pass, a call ends, someone asks for the state, or it is
nothing. -/
inductive Forms : Traffic → Prop
  | enters (hact : e.act = .enter) : Forms (t.step e)
  | tells (p : Pass) (outcome : Outcome) (success : Bool)
      (hclosing : t.closing? e = some (p, outcome))
      (hverdict : e.callbacks.verdict? outcome = some success) :
      Forms ((t.turn e.now).tell e.now p success
        (t.desk.record e.callbacks e.now p.generation success).1)
  | loses (p : Pass) (outcome : Outcome) (hclosing : t.closing? e = some (p, outcome))
      (hverdict : e.callbacks.verdict? outcome = none) : Forms (t.lose p)
  | observes (hact : e.act = .observe) :
      Forms { t.turn e.now with desk := (t.desk.observe e.callbacks e.now).1 }
  | rests (hentry : e.act ≠ .enter) (hobserve : e.act ≠ .observe)
      (hclosing : t.closing? e = none) : Forms t

theorem step_forms : Forms t e (t.step e) := by
  by_cases hentry : e.act = .enter
  · exact .enters hentry
  · by_cases hobserve : e.act = .observe
    · rw [step_of_observe hobserve]
      exact .observes hobserve
    · cases hclosing : t.closing? e with
      | none =>
          rw [step_of_rest hentry hobserve hclosing]
          exact .rests hentry hobserve hclosing
      | some ending =>
          obtain ⟨p, outcome⟩ := ending
          rw [step_of_closing hclosing]
          cases hverdict : e.callbacks.verdict? outcome with
          | some success => exact .tells p outcome success hclosing hverdict
          | none => exact .loses p outcome hclosing hverdict

end Forms

/-- Everything that one event can come to. -/
inductive Stepped (t : Traffic) (now : Nat) : Traffic → Prop
  /-- Nothing. -/
  | idle : Stepped t now t
  /-- A query, or a rejection. -/
  | aside (d : Desk) (hd : d.breaker = (t.turn now).breaker) :
      Stepped t now { t.turn now with desk := d }
  /-- A call passes. -/
  | board (generation : UInt64) (d : Desk)
      (hcheck : (t.turn now).breaker.check = .admitted generation)
      (hd : d.breaker =
        { (t.turn now).breaker with counts := (t.turn now).breaker.counts.request }) :
      Stepped t now ((t.turn now).board now generation d)
  /-- A call passes, and the hook raises. -/
  | strand (generation : UInt64) (d : Desk)
      (hcheck : (t.turn now).breaker.check = .admitted generation)
      (hd : d.breaker =
        { (t.turn now).breaker with counts := (t.turn now).breaker.counts.request }) :
      Stepped t now
        (((t.turn now).board now generation d).lose ((t.turn now).nextPass now generation))
  /-- A call ends. -/
  | tell (p : Pass) (success : Bool) (d : Desk) (hp : p ∈ t.afloat)
      (hd : (t.turn now).breaker.Told now p.generation success d.breaker) :
      Stepped t now ((t.turn now).tell now p success d)
  /-- A call ends, and the classifier raises. -/
  | lose (p : Pass) (hp : p ∈ t.afloat) : Stepped t now (t.lose p)

/-- The breaker after a call has asked to pass. -/
theorem enter_breaker_of_check {t : Traffic} (cb : BreakerCallbacks) {now : Nat}
    {generation : UInt64} (h : (t.turn now).breaker.check = .admitted generation) :
    (t.desk.enter cb now).1.breaker =
      { (t.turn now).breaker with counts := (t.turn now).breaker.counts.request } := by
  rw [Desk.enter_breaker, Breaker.ask_breaker]
  rw [turn_breaker] at h ⊢
  rw [h]

theorem enter_breaker_of_reject {t : Traffic} (cb : BreakerCallbacks) {now : Nat}
    {error : CallError} (h : (t.turn now).breaker.check = .rejected error) :
    (t.desk.enter cb now).1.breaker = (t.turn now).breaker := by
  rw [Desk.enter_breaker, Breaker.ask_breaker]
  rw [turn_breaker] at h ⊢
  rw [h]

theorem step_enter (t : Traffic) (e : Event) (hact : e.act = .enter) :
    Stepped t e.now (t.step e) := by
  have hcheck : (t.breaker.ask e.now).answer = (t.turn e.now).breaker.check :=
    Breaker.ask_answer t.breaker e.now
  have hentry := Desk.enter_entry e.callbacks t.desk e.now
  unfold step
  rw [hact, hcheck]
  rw [hcheck] at hentry
  cases hcase : (t.turn e.now).breaker.check with
  | admitted generation =>
      -- the request has been counted before the hook can raise
      have hd := enter_breaker_of_check e.callbacks hcase
      rw [hcase] at hentry
      rcases hdesk : t.desk.enter e.callbacks e.now with ⟨d, entry⟩
      rw [hdesk] at hentry hd
      rcases hentry with rfl | rfl
      · exact .strand generation d hcase hd
      · exact .board generation d hcase hd
  | rejected error =>
      have hd := enter_breaker_of_reject e.callbacks hcase
      rw [hcase] at hentry
      rcases hdesk : t.desk.enter e.callbacks e.now with ⟨d, entry⟩
      rw [hdesk] at hentry hd
      rcases hentry with rfl | rfl
      · exact .aside d hd
      · exact .aside d hd

theorem step_stepped (t : Traffic) (e : Event) : Stepped t e.now (t.step e) := by
  have hforms := step_forms t e
  generalize hstep : t.step e = t' at hforms ⊢
  cases hforms with
  | enters hact => exact step_enter t e hact
  | tells p outcome success hclosing hverdict =>
      refine .tell p success _ (mem_of_closing? hclosing) ?_
      rw [Desk.record_breaker]
      exact Breaker.record_told _ _ _ _ _
  | loses p outcome hclosing hverdict => exact .lose p (mem_of_closing? hclosing)
  | observes hact => exact .aside _ (Desk.observe_breaker e.callbacks t.desk e.now)
  | rests => exact .idle

/-! ## What a run keeps -/

/-- Kept by each of the changes that events are made of. -/
structure Kept (P : Traffic → Prop) : Prop where
  turn : ∀ t now, P t → P (t.turn now)
  aside : ∀ t d, d.breaker = t.breaker → P t → P { t with desk := d }
  board : ∀ t now generation d, t.breaker.check = .admitted generation →
    d.breaker = { t.breaker with counts := t.breaker.counts.request } →
    P t → P (t.board now generation d)
  tell : ∀ t now p success d, p ∈ t.afloat → t.breaker.Told now p.generation success d.breaker →
    P t → P (t.tell now p success d)
  lose : ∀ t p, p ∈ t.afloat → P t → P (t.lose p)

theorem Kept.step {P : Traffic → Prop} (hkept : Kept P) (t : Traffic) (e : Event) (h : P t) :
    P (t.step e) := by
  -- every event but a call that is lost begins with the change that is due
  have hturn := hkept.turn t e.now h
  have hstep := step_stepped t e
  generalize t.step e = t' at hstep ⊢
  cases hstep with
  | idle => exact h
  | aside d hd => exact hkept.aside _ d hd hturn
  | board generation d hcheck hd => exact hkept.board _ _ _ d hcheck hd hturn
  | strand generation d hcheck hd =>
      exact hkept.lose _ _ List.mem_cons_self (hkept.board _ _ _ d hcheck hd hturn)
  | tell p success d hp hd => exact hkept.tell _ _ p success d hp hd hturn
  | lose p hp => exact hkept.lose t p hp h

theorem Kept.after {P : Traffic → Prop} (hkept : Kept P) {t : Traffic} (events : List Event)
    (h : P t) : P (t.after events) := by
  induction events generalizing t with
  | nil => exact h
  | cons e rest ih => exact ih (hkept.step t e h)

/-- What holds at the start and is kept by the elementary changes holds after every run. -/
theorem Kept.run {P : Traffic → Prop} (hkept : Kept P) {s : BreakerSettings} {start : Nat}
    (h : P (Traffic.start s start)) (events : List Event) : P (Traffic.run s start events) :=
  hkept.after events h

end Traffic

end Dialer
