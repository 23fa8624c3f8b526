import Dialer.Proofs.Breaker.Notices
import Dialer.Proofs.Breaker.Progress

/-!
# Open periods

A change to open fixes the instant at which the open period ends, if there is such an instant. Until
then the circuit rejects every call and is seen open, whatever the calls that passed before come to
(`OpenSince.step`). No timer ends the period: the first event from that instant on in which the
breaker has a part (`Reaches`) finds the change to half-open due and makes it, once.

A period that no instant ends is left with the end of the window before it, and a trial may pass
long before its time (`unending_period_cut`).
-/

namespace Dialer

namespace Desk

/-! ## The first change of a report -/

theorem count_report_of_not_mem (cb : BreakerCallbacks) {c : Transition} {made : List Transition}
    (h : c ∉ made) (d : Desk) :
    let d' := (report cb d made).1
    d'.metrics.count (.breakerTransitions d.breaker.settings.name c) =
        d.metrics.count (.breakerTransitions d.breaker.settings.name c) ∧
      d'.notices.count c = d.notices.count c := by
  induction made generalizing d with
  | nil => exact ⟨rfl, rfl⟩
  | cons first rest ih =>
      obtain ⟨hne, hrest⟩ : c ≠ first ∧ c ∉ rest := by simpa using h
      have hnote : (d.note cb first).notices.count c = d.notices.count c := by
        unfold note
        cases cb.hook.isSome with
        | true => simp [Ne.symm hne]
        | false => rfl
      rw [report_cons]
      cases cb.notify first with
      | raised => simpa [hne] using hnote
      | returned _ => simpa [hne, hnote] using ih hrest (d.note cb first)

/-- The first change is counted and told, even if the hook raises at it. -/
theorem count_report_first (cb : BreakerCallbacks) {c : Transition} {rest : List Transition}
    (h : c ∉ rest) (d : Desk) :
    let d' := (report cb d (c :: rest)).1
    d'.metrics.count (.breakerTransitions d.breaker.settings.name c) =
        d.metrics.count (.breakerTransitions d.breaker.settings.name c) + 1 ∧
      (cb.hook ≠ none → d'.notices.count c = d.notices.count c + 1) := by
  have hnote (hhook : cb.hook ≠ none) :
      (d.note cb c).notices.count c = d.notices.count c + 1 := by
    simp [note, Option.isSome_iff_ne_none.mpr hhook]
  obtain ⟨hmetrics, hnotices⟩ := count_report_of_not_mem cb h (d.note cb c)
  rw [note_breaker] at hmetrics
  dsimp only
  rw [report_cons]
  cases cb.notify c with
  | raised => exact ⟨by simp, hnote⟩
  | returned _ => exact ⟨by simp [hmetrics], fun hhook => hnotices.trans (hnote hhook)⟩

end Desk

namespace Traffic

open Breaker

variable {s : BreakerSettings} {t : Traffic} {e : Event} {m : Move} {earlier : List Move} {due : Nat}

/-- An operation of the breaker: a call asks to pass, one in flight ends and the breaker is told
how, or someone asks for the state. -/
def Reaches (t : Traffic) (e : Event) : Prop :=
  e.act = .enter ∨ (∃ p ∈ t.afloat, ∃ success, e.Tells p.number success) ∨ e.act = .observe

/-- The latest change tells the state. -/
theorem openSince_run (s : BreakerSettings) (start : Nat) (events : List Event)
    (hmoves : (run s start events).moves = m :: earlier) (htarget : m.change.target = .opened)
    (hends : Clock.instant? m.time s.openDuration = some due) :
    OpenSince s m earlier (some due) (run s start events) := by
  have hpath := path_run s start events
  have hmoved := moved_run s start events
  generalize run s start events = t at hmoves hpath hmoved ⊢
  have hstate : t.breaker.state = .opened := by
    rw [hmoves, List.map_cons] at hpath
    generalize t.breaker.state = state at hpath ⊢
    cases hpath with
    | change _ _ => exact htarget
  obtain ⟨m', rest, hmoves', _, _, hexpiry⟩ := hmoved.begun_opened hstate
  obtain ⟨rfl, rfl⟩ := List.cons.inj (hmoves.symm.trans hmoves')
  exact ⟨hmoved.settings, hstate, hexpiry due hends, hmoves⟩

/-! ## At its end -/

/-- The change to half-open, when it is made. -/
def trialMove (t : Traffic) (now : Nat) : Move :=
  ⟨⟨.opened, .halfOpen⟩, t.era + 1, now⟩

theorem OpenSince.refresh_due (h : OpenSince s m earlier (some due) t) {now : Nat}
    (hdue : due ≤ now) :
    t.breaker.refresh now = (t.breaker.enter .halfOpen now, [⟨.opened, .halfOpen⟩]) := by
  have hexpired : t.breaker.isExpired now = true := by
    simp [isExpired, h.expiry, hdue]
  simp [Breaker.refresh, hexpired, h.state]

theorem OpenSince.turn_due (h : OpenSince s m earlier (some due) t) {now : Nat}
    (hdue : due ≤ now) :
    t.turn now =
      { t with
        desk := { t.desk with breaker := t.breaker.enter .halfOpen now }
        era := t.era + 1
        moves := t.trialMove now :: m :: earlier } := by
  unfold Traffic.turn
  rw [h.refresh_due hdue, carry_enter rfl, if_neg (by simp [h.state]), h.state, h.moves]
  rfl

/-- The change to half-open is made, counted and told once. Behind it comes at most what an
outcome does to a half-open circuit, and nothing while generations are told apart. -/
structure TriesOnce (t : Traffic) (e : Event) : Prop where
  moves : ∃ more, (t.step e).moves = more ++ t.trialMove e.now :: t.moves ∧
    (∀ c ∈ more, c.change.source = .halfOpen) ∧ (t.era + 1 < UInt64.size → more = [])
  counted :
    (t.step e).desk.metrics.count
        (.breakerTransitions t.breaker.settings.name ⟨.opened, .halfOpen⟩) =
      t.desk.metrics.count (.breakerTransitions t.breaker.settings.name ⟨.opened, .halfOpen⟩) + 1
  noticed : e.callbacks.hook ≠ none →
    (t.step e).desk.notices.count ⟨.opened, .halfOpen⟩ =
      t.desk.notices.count ⟨.opened, .halfOpen⟩ + 1

theorem triesOnce_of_report {b : Breaker} {rest : List Transition}
    (hsettings : b.settings = t.breaker.settings) (hrest : ⟨.opened, .halfOpen⟩ ∉ rest)
    (hdesk : (t.step e).desk =
      (Desk.report e.callbacks { t.desk with breaker := b } (⟨.opened, .halfOpen⟩ :: rest)).1)
    (hmoves : ∃ more, (t.step e).moves = more ++ t.trialMove e.now :: t.moves ∧
      (∀ c ∈ more, c.change.source = .halfOpen) ∧ (t.era + 1 < UInt64.size → more = [])) :
    TriesOnce t e := by
  obtain ⟨hcounted, hnoticed⟩ :=
    Desk.count_report_first e.callbacks hrest { t.desk with breaker := b }
  rw [← hdesk, hsettings] at hcounted
  rw [← hdesk] at hnoticed
  exact ⟨hmoves, hcounted, hnoticed⟩

/-- The call that asks to pass is the first trial. -/
theorem OpenSince.answer_due (h : OpenSince s m earlier (some due) t) {now : Nat}
    (hdue : due ≤ now) :
    (t.breaker.ask now).answer = .admitted (t.breaker.generation + 1) := by
  rw [ask_answer, h.refresh_due hdue]
  exact check_eq_admitted.mpr ⟨rfl, .inr ⟨rfl, t.breaker.settings.one_le_trials⟩⟩

theorem OpenSince.tries_of_enter (h : OpenSince s m earlier (some due) t)
    (hdue : due ≤ e.now) (hact : e.act = .enter) :
    TriesOnce t e := by
  obtain ⟨hdesk, hmoves⟩ := step_of_enter (t := t) hact
  have hmade : (t.breaker.ask e.now).transitions = [⟨.opened, .halfOpen⟩] := by
    rw [ask_transitions, h.refresh_due hdue]
  have hentry := Desk.enter_entry e.callbacks t.desk e.now
  have hreport := Desk.enter_desk e.callbacks t.desk e.now
  rw [h.answer_due hdue] at hentry
  rw [hmade] at hreport
  refine triesOnce_of_report (ask_settings t.breaker e.now) List.not_mem_nil ?_
    ⟨[], ?_, by simp, fun _ => rfl⟩
  · rcases hentry with hraised | hpassed
    · rw [hdesk, hreport, hraised]
    · rw [hdesk, hreport, hpassed]
  · rw [hmoves, h.turn_due hdue, h.moves]
    rfl

theorem OpenSince.tries_of_observe (h : OpenSince s m earlier (some due) t)
    (hdue : due ≤ e.now) (hact : e.act = .observe) :
    TriesOnce t e := by
  have hdesk := Desk.observe_desk e.callbacks t.desk e.now
  rw [h.refresh_due hdue] at hdesk
  refine triesOnce_of_report (b := t.breaker.enter .halfOpen e.now) rfl List.not_mem_nil ?_
    ⟨[], ?_, by simp, fun _ => rfl⟩
  · rw [step_of_observe hact]
    exact hdesk
  · rw [step_of_observe hact, h.turn_due hdue, h.moves]
    rfl

/-- Being told an outcome makes one change at most. -/
theorem tell_moves_cases (t : Traffic) (now : Nat) (p : Pass) (success : Bool) (d : Desk) :
    (t.tell now p success d).moves = t.moves ∨
      d.breaker.state ≠ t.breaker.state ∧ ∃ c, (t.tell now p success d).moves = c :: t.moves ∧
        c.change.source = t.breaker.state := by
  by_cases hstate : d.breaker.state = t.breaker.state
  · exact .inl (if_pos hstate)
  · exact .inr ⟨hstate, _, if_neg hstate, rfl⟩

/-- An outcome that comes in at the end of an open period is too late for its own generation,
unless the numbers have come round. -/
theorem OpenSince.generation_ne (h : OpenSince s m earlier (some due) t) (horderly : Orderly t) {now : Nat}
    (hdue : due ≤ now) (hfew : t.era + 1 < UInt64.size) {p : Pass}
    (hp : p ∈ t.afloat) : p.generation ≠ (t.turn now).breaker.generation := by
  have hpasses := horderly.mem_of_afloat hp
  have hera := (horderly.mem_passes p hpasses).1
  have hown := (orderly_kept.turn t now horderly).generation_eq_iff (p := p)
  rw [h.turn_due hdue] at hown ⊢
  intro hgen
  have hsame : p.era = t.era + 1 := (hown hfew hpasses).mp hgen
  omega

theorem record_settings (b : Breaker) (now : Nat) (generation : UInt64) (success : Bool)
    (trips : Counts → Reply Bool) :
    (b.record now generation success trips).breaker.settings = b.settings := by
  have hrefresh := refresh_settings b now
  rcases (record_told b now generation success trips).goesOrEnters with hgoes | ⟨state, _, henter⟩
  · exact hgoes.settings.trans hrefresh
  · rw [henter]
    exact hrefresh

/-- Its first change is the one that was due, and what comes behind it has another source. -/
theorem OpenSince.record_transitions (h : OpenSince s m earlier (some due) t) {now : Nat}
    (hdue : due ≤ now) (generation : UInt64) (success : Bool)
    (trips : Counts → Reply Bool) :
    ∃ rest, ⟨.opened, .halfOpen⟩ ∉ rest ∧
      (t.breaker.record now generation success trips).transitions =
        ⟨.opened, .halfOpen⟩ :: rest := by
  have hmade := Breaker.record_transitions t.breaker now generation success trips
  rw [← refresh_transitions, h.refresh_due hdue] at hmade
  refine ⟨_, ?_, hmade⟩
  unfold changes
  split <;> simp

theorem OpenSince.tries_of_tell (h : OpenSince s m earlier (some due) t) (horderly : Orderly t)
    (hdue : due ≤ e.now) {p : Pass} (hp : p ∈ t.afloat)
    {success : Bool} (htells : e.Tells p.number success) : TriesOnce t e := by
  have hstep := step_of_tells horderly hp htells
  have hdesk := Desk.record_desk e.callbacks t.desk e.now p.generation success
  obtain ⟨rest, hrest, hmade⟩ :=
    h.record_transitions hdue p.generation success e.callbacks.trips
  dsimp only at hdesk
  rw [hmade] at hdesk
  refine triesOnce_of_report (record_settings _ _ _ _ _) hrest (by rw [hstep]; exact hdesk) ?_
  have hturn : (t.turn e.now).moves = t.trialMove e.now :: t.moves := by
    rw [h.turn_due hdue, h.moves]
  have hhalf : (t.turn e.now).breaker.state = .halfOpen := by
    rw [h.turn_due hdue]
    rfl
  rw [hstep, ← hturn]
  rcases tell_moves_cases (t.turn e.now) e.now p success
    (t.desk.record e.callbacks e.now p.generation success).1 with hsame | ⟨hother, c, hmore, hc⟩
  · exact ⟨[], hsame, by simp, fun _ => rfl⟩
  · refine ⟨[c], hmore, List.forall_mem_singleton.mpr (hc.trans hhalf), fun hfew => ?_⟩
    -- a stale outcome makes no change of its own
    have htold := record_told t.breaker e.now p.generation success e.callbacks.trips
    rw [Desk.record_breaker, htold.eq_of_ne (h.generation_ne horderly hdue hfew hp)] at hother
    exact absurd rfl hother

theorem OpenSince.triesOnce (h : OpenSince s m earlier (some due) t) (horderly : Orderly t)
    (hdue : due ≤ e.now) (hreaches : t.Reaches e) :
    TriesOnce t e := by
  rcases hreaches with hact | ⟨p, hp, success, htells⟩ | hact
  · exact h.tries_of_enter hdue hact
  · exact h.tries_of_tell horderly hdue hp htells
  · exact h.tries_of_observe hdue hact

/-- A call that is admitted passes, even if the hook raises. -/
theorem passes_of_admitted (hact : e.act = .enter) {generation : UInt64}
    (hanswer : (t.breaker.ask e.now).answer = .admitted generation) :
    (t.step e).passes = (t.turn e.now).nextPass e.now generation :: t.passes := by
  have hentry := Desk.enter_entry e.callbacks t.desk e.now
  rw [show (t.desk.breaker.ask e.now).answer = _ from hanswer] at hentry
  unfold step
  rw [hact, hanswer]
  rcases hdesk : t.desk.enter e.callbacks e.now with ⟨d, entry⟩
  rw [hdesk] at hentry
  rcases hentry with rfl | rfl <;> rfl

theorem passesIn_of_cons {t' : Traffic} {p : Pass} {era : Nat} (h : t'.passes = p :: t.passes)
    (hera : p.era = era) (hnone : t.passesIn era = []) : t'.passesIn era = [p] := by
  unfold passesIn at hnone ⊢
  rw [h, List.filter_cons_of_pos (by simpa using hera), hnone]

/-- A hook that returns lets the first trial run. -/
theorem OpenSince.admits_due (h : OpenSince s m earlier (some due) t)
    (hdue : due ≤ e.now) (hact : e.act = .enter)
    (hreturns : e.callbacks.notify ⟨.opened, .halfOpen⟩ = .returned ()) : Admits t e := by
  have hmade : (t.breaker.ask e.now).transitions = [⟨.opened, .halfOpen⟩] := by
    rw [ask_transitions, h.refresh_due hdue]
  have hentry := Desk.enter_entry_of_report e.callbacks t.desk e.now
    (by rw [hmade, Desk.report_cons, hreturns]; rfl)
  rw [h.answer_due hdue] at hentry
  exact admits_of_passed hact hentry

/-- **An open period fails fast.** Let a change have opened the circuit, and let the open period
end at an instant. Let something happen before that instant only (the calls that passed before may
end in any way), or without a part of the breaker. Until the period ends, every call is rejected
because the circuit is open, and is not run; the circuit is seen open; and no event changes that.
The first operation from then on, of whatever kind, makes the change to half-open, once, and a call
that asks to pass is the first trial: it is let pass as the only one of its generation, and runs
unless the hook raises at that change. -/
theorem open_period (s : BreakerSettings) (start : Nat) (before during : List Event) (m : Move)
    (earlier : List Move) (due : Nat) (hopens : (run s start before).moves = m :: earlier)
    (htarget : m.change.target = .opened)
    (hends : Clock.instant? m.time s.openDuration = some due)
    (hduring : ∀ e ∈ during, e.now < due ∨ e.Apart) :
    let t := (run s start before).after during
    (∀ cb now, now < due →
        (t.desk.enter cb now).2 = .rejected (.circuitOpen s.name) ∧
          (∀ outcome, t.desk.call cb now outcome =
            ((t.desk.enter cb now).1, .result (.error (.circuitOpen s.name)))) ∧
          (t.desk.observe cb now).2 = .returned .opened) ∧
      t.moves = m :: earlier ∧
      ∀ e : Event, due ≤ e.now → t.Reaches e → TriesOnce t e ∧ (e.act = .enter →
        (t.breaker.ask e.now).answer = .admitted (t.breaker.generation + 1) ∧
          (∃ p, (t.step e).passesIn (t.era + 1) = [p]) ∧
          (e.callbacks.notify ⟨.opened, .halfOpen⟩ = .returned () → Admits t e)) := by
  have hopen := (openSince_run s start before hopens htarget hends).after
    fun e he => (hduring e he).imp_left fun hearly _ hdue => Option.some.inj hdue ▸ hearly
  have horderly := orderly_kept.after during (orderly_run s start before)
  generalize (run s start before).after during = t at hopen horderly ⊢
  refine ⟨fun cb now hearly => ?_, hopen.moves, fun e hdue hreaches =>
    ⟨hopen.triesOnce horderly hdue hreaches, fun hact => ⟨hopen.answer_due hdue, ?_, ?_⟩⟩⟩
  · have hearly' : ∀ due' ∈ some due, now < due' := fun _ hdue => Option.some.inj hdue ▸ hearly
    have hrejected := hopen.enter cb hearly'
    exact ⟨hrejected, Desk.call_of_rejected hrejected, hopen.observe cb hearly'⟩
  · -- nothing is on record yet for the generation that the call begins
    have hnone := horderly.passesIn_future (Nat.lt_succ_self t.era)
    have hpasses := passes_of_admitted hact (hopen.answer_due hdue)
    refine ⟨_, passesIn_of_cons hpasses ?_ hnone⟩
    rw [hopen.turn_due hdue]
    rfl
  · exact hopen.admits_due hdue hact

/-- The first of two calls trips a circuit; the other one is in flight. -/
def tripped : List Event :=
  [.plain 0 .enter, .plain 0 .enter, .plain 1 (.leave 0 .raises)]

/-- The other call fails while the circuit is open, and one that asks to pass is rejected. Half a
second after the end of the open period the first trial passes. -/
theorem open_period_tripped :
    let t := (run twoTrials 0 tripped).after [.plain 5 (.leave 1 .raises), .plain 9 .enter]
    (∀ cb, (t.desk.enter cb 1_000_000_000).2 = .rejected (.circuitOpen "trials")) ∧
      Admits t (.plain 1_500_000_000 .enter) := by
  have hearly : ∀ e ∈ [Event.plain 5 (.leave 1 .raises), .plain 9 .enter],
      e.now < 1_000_000_001 ∨ e.Apart := by
    simp only [List.forall_mem_cons]
    exact ⟨.inl (by decide), .inl (by decide), by simp⟩
  have hperiod := open_period twoTrials 0 tripped _ ⟨⟨.closed, .opened⟩, 1, 1⟩ [] 1_000_000_001
    (by decide) rfl (by decide) hearly
  refine ⟨fun cb => (hperiod.1 cb 1_000_000_000 (by decide)).1, ?_⟩
  exact ((hperiod.2.2 (.plain 1_500_000_000 .enter) (by decide) (.inl rfl)).2 rfl).2.2 rfl

/-- A circuit with a rolling window of a second opens for a span beyond all instants. A call that
asks to pass at the end of that window is let pass as a trial. -/
theorem unending_period_cut :
    let s := { unending with interval := .ofSecs 1 }
    let t := run s 0 [.plain 0 .enter, .plain 1 (.leave 0 (.returns (.error (.failed "boom"))))]
    t.moves = [⟨⟨.closed, .opened⟩, 1, 1⟩] ∧ t.breaker.state = .opened ∧
      1_000_000_000 < Clock.after 1 s.openDuration ∧
      (t.desk.enter (Event.plain 1_000_000_000 .enter).callbacks 1_000_000_000).2 = .passed 2 :=
  ⟨rfl, rfl, by decide, rfl⟩

end Traffic

end Dialer
