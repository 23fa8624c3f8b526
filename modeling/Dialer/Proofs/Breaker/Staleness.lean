import Dialer.Proofs.Breaker.Notices

/-!
# Outcomes that come too late

An outcome that comes in after the generation of its call is told for nothing: the breaker does
what it does when someone asks for the state (`step_of_stale`). Two runs that differ in such an
outcome differ in the record of this one call, and the record has no influence on the breaker.

The comparison is one of runs in which a call has been left out of the record
(`Traffic.without`). Every event but the end of that call does the same with the call on record
and without it (`step_without`), and so does every list of such events.
-/

namespace Dialer

/-- It ends the call of a number, in whatever way. -/
def Act.Ends (act : Act) (number : Nat) : Prop :=
  (∃ outcome, act = .leave number outcome) ∨ act = .drop number

/-- Calm callbacks have the breaker told how the call ended. -/
theorem Event.Calm.tells {e : Event} {number : Nat} (h : e.Calm) (hends : e.act.Ends number) :
    ∃ success, e.Tells number success := by
  rcases hends with ⟨outcome, hact⟩ | hact
  · obtain ⟨success, hverdict⟩ := Option.ne_none_iff_exists'.mp (h.verdict outcome)
    exact ⟨success, .inl ⟨outcome, hact, hverdict⟩⟩
  · exact ⟨false, .inr ⟨hact, rfl⟩⟩

namespace Breaker

/-- An outcome of another generation is a query. -/
theorem record_of_ne {b : Breaker} {now : Nat} {generation : UInt64}
    (h : generation ≠ (b.refresh now).1.generation) (success : Bool) (trips : Counts → Reply Bool) :
    b.record now generation success trips =
      ⟨(b.refresh now).1, (b.refresh now).2, .returned ()⟩ := by
  unfold record
  exact if_pos h

end Breaker

theorem Desk.record_of_ne {cb : BreakerCallbacks} {d : Desk} {now : Nat} {generation : UInt64}
    (h : generation ≠ (d.breaker.refresh now).1.generation) (success : Bool) :
    (d.record cb now generation success).1 = (d.observe cb now).1 := by
  rw [Desk.record_desk, Desk.observe_desk, Breaker.record_of_ne h]

namespace Traffic

open Breaker

variable {t : Traffic} {e : Event} {p : Pass}

/-- The traffic with one call left out of what is in flight and what is settled. -/
def without (t : Traffic) (p : Pass) : Traffic :=
  { t with
    afloat := t.afloat.filter (· ≠ p)
    settled := t.settled.filter (·.pass ≠ p) }

@[simp] theorem without_desk (t : Traffic) (p : Pass) : (t.without p).desk = t.desk :=
  rfl

@[simp] theorem without_breaker (t : Traffic) (p : Pass) : (t.without p).breaker = t.breaker :=
  rfl

/-! ## Events that are not about the call -/

theorem call?_without {number : Nat} (h : number ≠ p.number) :
    (t.without p).call? number = t.call? number := by
  unfold call? without
  rw [List.find?_filter]
  congr 1
  funext q
  by_cases hq : q.number = number
  · have hne : q ≠ p := fun heq => h (hq ▸ heq ▸ rfl)
    simp [hq, hne]
  · simp [hq]

theorem carry_without (t : Traffic) (now : Nat) (d : Desk) (p : Pass) :
    (t.without p).carry now d = (t.carry now d).without p :=
  rfl

theorem turn_without (t : Traffic) (now : Nat) (p : Pass) :
    (t.without p).turn now = (t.turn now).without p :=
  rfl

theorem board_without (now : Nat) (generation : UInt64) (d : Desk)
    (hp : p.number < t.passes.length) :
    (t.without p).board now generation d = (t.board now generation d).without p := by
  have hne : t.nextPass now generation ≠ p := by
    rintro rfl
    exact Nat.lt_irrefl _ hp
  unfold board without
  rw [List.filter_cons_of_pos (by simpa using hne)]
  rfl

theorem lose_without (t : Traffic) (p q : Pass) :
    (t.without p).lose q = (t.lose q).without p := by
  unfold lose without
  rw [List.erase_filter]

theorem settle_without {q : Pass} (hne : q ≠ p) (success : Bool) :
    (t.without p).settle q success = (t.settle q success).without p := by
  unfold settle without
  rw [List.erase_filter, List.filter_cons_of_pos (by simpa using hne)]

theorem tell_without {q : Pass} (hne : q ≠ p) (now : Nat) (success : Bool) (d : Desk) :
    (t.without p).tell now q success d = (t.tell now q success d).without p := by
  unfold tell
  rw [settle_without hne, carry_without]

theorem closing?_without (hother : ¬ e.act.Ends p.number) :
    (t.without p).closing? e = t.closing? e := by
  unfold closing?
  cases hact : e.act with
  | leave number outcome =>
      have hne : number ≠ p.number := by
        rintro rfl
        exact hother (.inl ⟨outcome, hact⟩)
      simp only [call?_without hne]
  | drop number =>
      have hne : number ≠ p.number := by
        rintro rfl
        exact hother (.inr hact)
      simp only [call?_without hne]
  | _ => rfl

theorem ne_of_closing? {q : Pass} {outcome : Outcome} (hother : ¬ e.act.Ends p.number)
    (hclosing : t.closing? e = some (q, outcome)) : q ≠ p := by
  rintro rfl
  obtain ⟨-, hact | ⟨hact, -⟩⟩ := closing?_cases hclosing
  · exact hother (.inl ⟨outcome, hact⟩)
  · exact hother (.inr hact)

/-- The end of the call apart, an event does the same without the call. -/
theorem step_without (hp : p.number < t.passes.length) (hother : ¬ e.act.Ends p.number) :
    (t.without p).step e = (t.step e).without p := by
  have hsame := closing?_without (t := t) hother
  have hforms := t.step_forms e
  generalize hstep : t.step e = t' at hforms ⊢
  cases hforms with
  | enters hact =>
      unfold step
      simp only [hact, without_desk, without_breaker, turn_without]
      rcases t.desk.enter e.callbacks e.now with ⟨d, entry⟩
      cases entry with
      | passed generation => exact board_without e.now generation d hp
      | rejected error => rfl
      | raised =>
          dsimp only
          cases (t.breaker.ask e.now).answer with
          | rejected error => rfl
          | admitted generation =>
              dsimp only
              rw [board_without (t := t.turn e.now) e.now generation d hp]
              exact lose_without _ _ _
  | tells q outcome success hclosing hverdict =>
      rw [step_of_closing (hsame.trans hclosing), hverdict]
      exact tell_without (t := t.turn e.now) (ne_of_closing? hother hclosing) e.now success _
  | loses q outcome hclosing hverdict =>
      rw [step_of_closing (hsame.trans hclosing), hverdict]
      exact lose_without _ _ _
  | observes hact =>
      rw [step_of_observe hact]
      rfl
  | rests hentry hobserve hclosing => exact step_of_rest hentry hobserve (hsame.trans hclosing)

theorem answer?_without (t : Traffic) (p : Pass) (e : Event) :
    (t.without p).answer? e = t.answer? e :=
  rfl

/-- The number of a call that passed is given to no other. -/
theorem passes_kept (number : Nat) : Kept fun t => number < t.passes.length where
  turn _ _ h := h
  aside _ _ _ h := h
  board _ _ _ _ _ _ h := Nat.lt_succ_of_lt h
  tell _ _ _ _ _ _ _ h := h
  lose _ _ _ h := h

/-- The rest of a run does not depend on the record of a call that has ended. -/
theorem after_without (hp : p.number < t.passes.length) {events : List Event}
    (hother : ∀ e ∈ events, ¬ e.act.Ends p.number) :
    (t.without p).after events = (t.after events).without p ∧
      (t.without p).answers events = t.answers events := by
  induction events generalizing t with
  | nil => exact ⟨rfl, rfl⟩
  | cons e rest ih =>
      have hfirst := step_without hp (hother e List.mem_cons_self)
      obtain ⟨hafter, hanswers⟩ := ih ((passes_kept p.number).step t e hp)
        (fun e' he' => hother e' (List.mem_cons_of_mem e he'))
      constructor
      · show ((t.without p).step e).after rest = _
        rw [hfirst]
        exact hafter
      · rw [answers, answers, answer?_without, hfirst, hanswers]

/-! ## The end of the call, too late -/

theorem without_settle (t : Traffic) (p : Pass) (success : Bool) :
    (t.settle p success).without p = t.without p := by
  have hnot : p ∉ t.afloat.filter (· ≠ p) := by simp
  unfold settle without
  rw [← List.erase_filter, List.erase_of_not_mem hnot, List.filter_cons_of_neg (by simp)]

/-- What the desk is after a query; who asked is not on record. -/
def observed (t : Traffic) (e : Event) : Traffic :=
  { t.turn e.now with desk := (t.desk.observe e.callbacks e.now).1 }

/-- Apart from the record of the call, its end comes to a query. -/
theorem step_of_stale (horderly : Orderly t) (hp : p ∈ t.afloat) (hcalm : e.Calm)
    (hends : e.act.Ends p.number) (hstale : p.generation ≠ (t.turn e.now).breaker.generation) :
    (t.step e).without p = (t.observed e).without p := by
  obtain ⟨success, htells⟩ := hcalm.tells hends
  have hbreaker := Desk.observe_breaker e.callbacks t.desk e.now
  have hsame : Goes (t.turn e.now).breaker (t.desk.observe e.callbacks e.now).1.breaker :=
    .of_eq hbreaker
  rw [step_of_tells horderly hp htells, Desk.record_of_ne hstale, tell_goes p success e.now hsame]
  exact congrArg (fun u : Traffic => { u with desk := (t.desk.observe e.callbacks e.now).1 })
    (without_settle (t.turn e.now) p success)

/-- **A stale outcome is void.** Let a call end when its generation is over, by a change of state
or by a time that has come, whether the change due has been applied or not. However else the call
ends at that instant, and if someone asks for the state instead, all is the same but the record of
this call: the breaker with its counts, the changes counted and told, the calls that pass and the
answers to them, then and ever after. -/
theorem stale_outcome_void (s : BreakerSettings) (start : Nat) (events later : List Event)
    (e : Event) (act : Act) (hp : p ∈ (run s start events).afloat) (hcalm : e.Calm)
    (hends : e.act.Ends p.number) (hother : act.Ends p.number ∨ act = .observe)
    (hover : p.era ≠ ((run s start events).turn e.now).era)
    (hfew : ((run s start events).turn e.now).era < UInt64.size)
    (hrest : ∀ e' ∈ later, ¬ e'.act.Ends p.number) :
    let t := (run s start events).step e
    let t' := (run s start events).step { e with act }
    (t.after later).desk = (t'.after later).desk ∧
      (t.after later).without p = (t'.after later).without p ∧
      t.answers later = t'.answers later := by
  have horderly := orderly_run s start events
  generalize run s start events = t at hp hover hfew horderly ⊢
  have hpasses := horderly.mem_of_afloat hp
  have hnumber := horderly.number_lt p hpasses
  have hstale : p.generation ≠ (t.turn e.now).breaker.generation := fun hgen =>
    hover (((orderly_kept.turn t e.now horderly).generation_eq_iff hfew hpasses).mp hgen)
  have hsame : (t.step e).without p = (t.step { e with act }).without p := by
    rw [step_of_stale horderly hp hcalm hends hstale]
    rcases hother with hends' | rfl
    · have hcalm' : { e with act : Event }.Calm := ⟨hcalm.hook, hcalm.classifier⟩
      exact (step_of_stale horderly hp hcalm' hends' hstale).symm
    · rw [step_of_observe rfl]
      rfl
  have hkept := passes_kept p.number
  obtain ⟨hafter, hanswers⟩ := after_without (hkept.step t e hnumber) hrest
  obtain ⟨hafter', hanswers'⟩ := after_without (hkept.step t { e with act } hnumber) hrest
  rw [hsame] at hafter hanswers
  have hwithout := hafter.symm.trans hafter'
  have hdesk := congrArg desk hwithout
  exact ⟨hdesk, hwithout, hanswers.symm.trans hanswers'⟩

/-- A circuit with a rolling window of a second. -/
def rolling : BreakerSettings :=
  ⟨"window", 1, .ofSecs 1, .ofSecs 10⟩

/-- A failure at the instant its window ends does not touch the next one. -/
theorem stale_outcome_void_rolling :
    let t := run rolling 0 [.plain 0 .enter]
    let later : List Event := [.plain 1_000_000_000 .enter, .plain 1_000_000_001 (.leave 1 .raises)]
    (⟨0, 0, 0, 0⟩ : Pass) ∈ t.afloat ∧
      ((t.step (.plain 1_000_000_000 (.leave 0 .raises))).after later).desk =
        ((t.step (.plain 1_000_000_000 .observe)).after later).desk := by
  refine ⟨by decide, ?_⟩
  refine (stale_outcome_void rolling 0 [.plain 0 .enter] _ (.plain 1_000_000_000 (.leave 0 .raises))
    .observe (p := ⟨0, 0, 0, 0⟩) (by decide) (Event.calm_plain _ _) (.inl ⟨_, rfl⟩) (.inr rfl)
    (by decide) (by decide) ?_).1
  simp [Act.Ends, Event.plain]

end Traffic

end Dialer
