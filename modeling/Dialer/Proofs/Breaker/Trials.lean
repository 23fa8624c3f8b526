import Dialer.Proofs.Breaker.Balance
import Dialer.Proofs.Breaker.Moves

/-!
# Half-open periods

A half-open period is a generation, and its calls are its trials. No period has more of them
than there are trials (`Rationed`), and the outcomes of its own calls alone decide how it ends
(`Decides`): closed with the last success that was wanted, open with the first failure.
-/

namespace Dialer

/-- A call that is rejected does not run: how it would have ended does not matter. -/
theorem Desk.call_of_rejected {cb : BreakerCallbacks} {d : Desk} {now : Nat} {error : CallError}
    (h : (d.enter cb now).2 = .rejected error) (outcome : Outcome) :
    d.call cb now outcome = ((d.enter cb now).1, .result (.error error)) := by
  unfold call
  rcases hdesk : d.enter cb now with ⟨d', entry⟩
  rw [hdesk] at h
  rw [show entry = .rejected error from h]

namespace Traffic

open Breaker

variable {s : BreakerSettings} {t : Traffic}

/-! ## The number of trials -/

/-- No half-open period has had more calls than there are trials. -/
def Rationed (s : BreakerSettings) (t : Traffic) : Prop :=
  ∀ m ∈ t.moves, m.change.target = .halfOpen → (t.passesIn m.era).length ≤ s.trials

theorem Rationed.carry (h : Rationed s t) (horderly : Orderly t) {now : Nat} {d : Desk}
    (hd : GoesOrEnters now t.breaker d.breaker) : Rationed s (t.carry now d) := by
  rcases hd with hgoes | ⟨state, _, henter⟩
  · rw [carry_same hgoes.generation hgoes.state]
    exact h
  · rw [carry_enter henter]
    intro m hm htarget
    show (t.passesIn m.era).length ≤ s.trials
    dsimp only at hm
    split at hm
    · exact h m hm htarget
    · rcases List.mem_cons.mp hm with rfl | hold
      · -- the period that begins now has no calls yet
        rw [horderly.passesIn_future (Nat.lt_succ_self _)]
        exact Nat.zero_le _
      · exact h m hold htarget

/-- A call that passes belongs to the current generation only, and there a half-open circuit
has let no more calls pass than there are trials. -/
theorem Rationed.board (h : Rationed s t) (hmoved : Moved s t) {now : Nat} {generation : UInt64}
    {d : Desk} (hd : Goes t.breaker d.breaker) (hbalanced : Balanced (t.board now generation d)) :
    Rationed s (t.board now generation d) := by
  intro m hm htarget
  by_cases hera : m.era = t.era
  · have hstate : d.breaker.state = .halfOpen := by
      rw [hd.state, ← (hmoved.target m hm).2 hera, htarget]
    have hsettings : d.breaker.settings = s := hd.settings.trans hmoved.settings
    have hle := (hbalanced.accounts.halfOpen hstate).2.2
    rw [hera]
    exact hsettings ▸ hle
  · have hsame : (t.board now generation d).passesIn m.era = t.passesIn m.era := by
      simp [passesIn, Traffic.board, nextPass, Ne.symm hera]
    rw [hsame]
    exact h m hm htarget

theorem rationed_kept (s : BreakerSettings) :
    Kept fun t => Balanced t ∧ Moved s t ∧ Rationed s t where
  turn t now h :=
    ⟨balanced_kept.turn t now h.1, (moved_kept s).turn t now h.2.1,
      h.2.2.carry h.1.orderly (refresh_cases t.breaker now).goesOrEnters⟩
  aside t d hd h :=
    ⟨balanced_kept.aside t d hd h.1, (moved_kept s).aside t d hd h.2.1, h.2.2⟩
  board t now generation d hcheck hd h := by
    have hbalanced := balanced_kept.board t now generation d hcheck hd h.1
    exact ⟨hbalanced, (moved_kept s).board t now generation d hcheck hd h.2.1,
      h.2.2.board h.2.1 (.of_counts hd) hbalanced⟩
  tell t now p success d hp hd h := by
    have hsettle : Rationed s (t.settle p success) := h.2.2
    exact ⟨balanced_kept.tell t now p success d hp hd h.1,
      (moved_kept s).tell t now p success d hp hd h.2.1,
      hsettle.carry (h.1.orderly.settle success hp) hd.goesOrEnters⟩
  lose t p hp h :=
    ⟨balanced_kept.lose t p hp h.1, (moved_kept s).lose t p hp h.2.1, h.2.2⟩

theorem rationed_run (s : BreakerSettings) (start : Nat) (events : List Event) :
    Rationed s (run s start events) :=
  ((rationed_kept s).run ⟨balanced_start s start, moved_start s start,
    fun _ hm => absurd hm List.not_mem_nil⟩ events).2.2

/-! ## Who is let pass -/

theorem Balanced.check_halfOpen (h : Balanced t) (hhalf : t.breaker.state = .halfOpen) :
    t.breaker.check =
      if (t.passesIn t.era).length = t.breaker.settings.trials then
        .rejected (.tooManyRequests t.breaker.settings.name)
      else .admitted t.breaker.generation := by
  have hle := (h.accounts.halfOpen hhalf).2.2
  have hfull : t.breaker.counts.requests ≥ t.breaker.settings.trials ↔
      (t.passesIn t.era).length = t.breaker.settings.trials := by
    rw [h.accounts.requests_halfOpen hhalf]
    omega
  unfold check
  rw [hhalf]
  simp only [hfull]

/-- In a half-open circuit the hook has no say in whether a call passes. -/
theorem enter_of_halfOpen (hhalf : t.breaker.state = .halfOpen) (cb : BreakerCallbacks)
    (now : Nat) :
    (t.desk.enter cb now).2 = match t.breaker.check with
      | .admitted generation => .passed generation
      | .rejected error => .rejected error := by
  have hrefresh := refresh_of_halfOpen hhalf now
  have hentry := Desk.enter_entry_of_report cb t.desk now ?_
  · rw [ask_answer, hrefresh] at hentry
    exact hentry
  · rw [ask_transitions, hrefresh]
    rfl

/-! ## How a period ends -/

/-- What one event makes of a half-open period. -/
inductive Trial (t t' : Traffic) : Prop
  | goes (hstate : t'.breaker.state = .halfOpen) (hera : t'.era = t.era)
  /-- A call of the period ends, and the period with it. -/
  | ends (p : Pass) (success : Bool) (hp : p ∈ t.afloat) (hown : p.era = t.era)
      (hsettled : t'.settled = ⟨p, success, t.era⟩ :: t.settled) (hera : t'.era = t.era + 1)
      (hstate : t'.breaker.state = if success then .closed else .opened)
      (hlast : success = true →
        (t.outcomesIn t.era).length + 1 = t.breaker.settings.trials)

theorem tell_goes (p : Pass) (success : Bool) (now : Nat) {d : Desk}
    (hd : Goes t.breaker d.breaker) :
    t.tell now p success d = { t.settle p success with desk := d } := by
  have hd' : Goes (t.settle p success).breaker d.breaker := hd
  exact carry_same hd'.generation hd'.state now

theorem tell_ends {p : Pass} {success : Bool} {state : CircuitState} {now : Nat} {d : Desk}
    (hp : p ∈ t.afloat) (hown : p.era = t.era) (hd : d.breaker = t.breaker.enter state now)
    (hstate : state = if success then .closed else .opened)
    (hlast : success = true → (t.outcomesIn t.era).length + 1 = t.breaker.settings.trials) :
    Trial t (t.tell now p success d) := by
  have henter : d.breaker = (t.settle p success).breaker.enter state now := hd
  unfold tell
  rw [carry_enter henter]
  exact .ends p success hp hown rfl rfl ((congrArg Breaker.state hd).trans hstate) hlast

theorem Balanced.tell_trial (h : Balanced t) (hfew : t.era < UInt64.size)
    (hhalf : t.breaker.state = .halfOpen) {now : Nat} {p : Pass} {success : Bool} {d : Desk}
    (hp : p ∈ t.afloat) (hd : t.breaker.Told now p.generation success d.breaker) :
    Trial t (t.tell now p success d) := by
  have haccounts := h.accounts
  rw [h.orderly.heardIn_eq hfew] at haccounts
  have hown := h.orderly.generation_eq_iff hfew (h.orderly.mem_of_afloat hp)
  have hgoes (hgoes : Goes t.breaker d.breaker) : Trial t (t.tell now p success d) := by
    rw [tell_goes p success now hgoes]
    exact .goes (hgoes.state.trans hhalf) rfl
  generalize hb : d.breaker = b at hd
  -- a call of an earlier generation is stale here, however it ended
  cases hd with
  | stale _ => exact hgoes (.of_eq hb)
  | heard hcurrent hears =>
      cases hears with
      | success _ => exact hgoes (.of_counts hb)
      | closes hstate hlast =>
          exact tell_ends hp (hown.mp hcurrent) hb rfl (fun _ => haccounts.closes hstate hlast)
      | failure hstate => exact absurd (hstate.symm.trans hhalf) (by decide)
      | trips hstate => exact absurd (hstate.symm.trans hhalf) (by decide)
      | reopens _ =>
          exact tell_ends hp (hown.mp hcurrent) hb rfl
            (fun hsuccess => absurd hsuccess (by decide))
      | unmoved hstate => exact absurd (hstate.symm.trans hhalf) (by decide)

theorem Balanced.step_trial (h : Balanced t) (hfew : t.era < UInt64.size)
    (hhalf : t.breaker.state = .halfOpen) (e : Event) : Trial t (t.step e) := by
  have hstep := step_stepped t e
  have hturn := turn_of_halfOpen hhalf e.now
  generalize t.step e = t' at hstep ⊢
  cases hstep with
  | idle => exact .goes hhalf rfl
  | aside d hd =>
      rw [hturn] at hd ⊢
      exact .goes ((congrArg Breaker.state hd).trans hhalf) rfl
  | board generation d _ hd =>
      rw [hturn] at hd ⊢
      exact .goes ((congrArg Breaker.state hd).trans hhalf) rfl
  | strand generation d _ hd =>
      rw [hturn] at hd ⊢
      exact .goes ((congrArg Breaker.state hd).trans hhalf) rfl
  | tell p success d hp hd =>
      rw [hturn] at hd ⊢
      exact h.tell_trial hfew hhalf hp hd
  | lose p _ => exact .goes hhalf rfl

/-- How the outcomes of its own calls decide a half-open period when something happens: it is
closed with as many successes as there are trials, open with a failure, and goes on otherwise.
Nothing ends it but the outcome of a call of its own. -/
structure Decides (s : BreakerSettings) (t t' : Traffic) : Prop where
  closed : t'.breaker.state = .closed ↔ t'.outcomesIn t.era = List.replicate s.trials true
  opened : t'.breaker.state = .opened ↔ false ∈ t'.outcomesIn t.era
  halfOpen : t'.breaker.state = .halfOpen ↔ t'.era = t.era
  own : t'.breaker.state ≠ .halfOpen →
    ∃ p ∈ t.afloat, p.era = t.era ∧ ∃ success, t'.settled = ⟨p, success, t.era⟩ :: t.settled

theorem outcomesIn_of_settled {t' : Traffic} {p : Pass} {success : Bool} {era : Nat}
    (hown : p.era = t.era) (hsettled : t'.settled = ⟨p, success, era⟩ :: t.settled) :
    t'.outcomesIn t.era = success :: t.outcomesIn t.era := by
  unfold outcomesIn
  simp [hsettled, hown]

/-- While a period lasts it has neither a failure nor all the successes. -/
theorem Balanced.outcomesIn_halfOpen (h : Balanced t) (hfew : t.era < UInt64.size)
    (hhalf : t.breaker.state = .halfOpen) :
    false ∉ t.outcomesIn t.era ∧ (t.outcomesIn t.era).length < t.breaker.settings.trials := by
  rw [← h.orderly.heardIn_eq hfew]
  obtain ⟨hnone, hlen, _⟩ := h.accounts.halfOpen hhalf
  exact ⟨hnone, hlen⟩

/-- A state in which the period goes on has it undecided, by the balance of that state. -/
theorem Balanced.decides_of_goes {t' : Traffic} (h' : Balanced t') (hmoved' : Moved s t')
    (hfew' : t'.era < UInt64.size) (hhalf' : t'.breaker.state = .halfOpen)
    (hera : t'.era = t.era) : Decides s t t' := by
  obtain ⟨hnone, hlen⟩ := h'.outcomesIn_halfOpen hfew' hhalf'
  rw [hera, hmoved'.settings] at hlen
  rw [hera] at hnone
  refine ⟨?_, ?_, ?_, fun hends => absurd hhalf' hends⟩
  · rw [hhalf']
    refine ⟨fun hclosed => absurd hclosed (by decide), fun hall => ?_⟩
    rw [hall, List.length_replicate] at hlen
    exact absurd hlen (Nat.lt_irrefl _)
  · rw [hhalf']
    exact ⟨fun hopened => absurd hopened (by decide), fun hmem => absurd hmem hnone⟩
  · exact ⟨fun _ => hera, fun _ => hhalf'⟩

theorem decides_of_closed {t' : Traffic} {outcomes : List Bool} (hnone : false ∉ outcomes)
    (hlast : outcomes.length + 1 = s.trials)
    (houtcomes : t'.outcomesIn t.era = true :: outcomes) (hclosed : t'.breaker.state = .closed)
    (hera : t'.era ≠ t.era) (hown : ∃ p ∈ t.afloat, p.era = t.era ∧ ∃ success,
      t'.settled = ⟨p, success, t.era⟩ :: t.settled) : Decides s t t' := by
  have hnone' : false ∉ true :: outcomes := by simpa using hnone
  have hall : true :: outcomes = List.replicate s.trials true := by
    refine List.eq_replicate_iff.mpr ⟨hlast, ?_⟩
    intro outcome hmem
    cases outcome with
    | true => rfl
    | false => exact absurd hmem hnone'
  refine ⟨?_, ?_, ?_, fun _ => hown⟩
  · rw [houtcomes, hclosed]
    exact ⟨fun _ => hall, fun _ => rfl⟩
  · rw [houtcomes, hclosed]
    exact ⟨fun hopened => absurd hopened (by decide), fun hmem => absurd hmem hnone'⟩
  · rw [hclosed]
    exact ⟨fun hhalf => absurd hhalf (by decide), fun hsame => absurd hsame hera⟩

theorem decides_of_opened {t' : Traffic} {outcomes : List Bool}
    (houtcomes : t'.outcomesIn t.era = false :: outcomes) (hopened : t'.breaker.state = .opened)
    (hera : t'.era ≠ t.era) (hown : ∃ p ∈ t.afloat, p.era = t.era ∧ ∃ success,
      t'.settled = ⟨p, success, t.era⟩ :: t.settled) : Decides s t t' := by
  refine ⟨?_, ?_, ?_, fun _ => hown⟩
  · rw [houtcomes, hopened]
    refine ⟨fun hclosed => absurd hclosed (by decide), fun hall => ?_⟩
    have hmem : false ∈ List.replicate s.trials true := hall ▸ List.mem_cons_self
    exact absurd (List.eq_of_mem_replicate hmem) (by decide)
  · rw [houtcomes, hopened]
    exact ⟨fun _ => List.mem_cons_self, fun _ => rfl⟩
  · rw [hopened]
    exact ⟨fun hhalf => absurd hhalf (by decide), fun hsame => absurd hsame hera⟩

theorem Balanced.step_decides (h : Balanced t) (hmoved : Moved s t) (hfew : t.era < UInt64.size)
    (hhalf : t.breaker.state = .halfOpen) (e : Event) : Decides s t (t.step e) := by
  have h' := balanced_kept.step t e h
  have hmoved' := (moved_kept s).step t e hmoved
  cases h.step_trial hfew hhalf e with
  | goes hhalf' hera => exact h'.decides_of_goes hmoved' (hera ▸ hfew) hhalf' hera
  | ends p success hp hown hsettled hera hstate hlast =>
      have houtcomes := outcomesIn_of_settled hown hsettled
      have hnext : (t.step e).era ≠ t.era := hera ▸ Nat.succ_ne_self t.era
      have hsettle : ∃ q ∈ t.afloat, q.era = t.era ∧ ∃ outcome,
          (t.step e).settled = ⟨q, outcome, t.era⟩ :: t.settled :=
        ⟨p, hp, hown, success, hsettled⟩
      cases success with
      | true =>
          have hnone := (h.outcomesIn_halfOpen hfew hhalf).1
          rw [hmoved.settings] at hlast
          exact decides_of_closed hnone (hlast rfl) houtcomes hstate hnext hsettle
      | false => exact decides_of_opened houtcomes hstate hnext hsettle

/-- A half-open period is the generation that one change from open began. -/
theorem Moved.begun_halfOpen (h : Moved s t) (hhalf : t.breaker.state = .halfOpen) :
    ∃ m ∈ t.moves, m.change = ⟨.opened, .halfOpen⟩ ∧ m.era = t.era := by
  obtain ⟨m, rest, hmoves, htrial, hera, _⟩ := h.begun_of_state hhalf (by decide)
  have hmem : m ∈ t.moves := hmoves ▸ List.mem_cons_self
  have hleads := h.diagram m hmem
  rw [htrial] at hleads
  have hchange : m.change = ⟨m.change.source, m.change.target⟩ := rfl
  rw [hleads.eq_opened, htrial] at hchange
  exact ⟨m, hmem, hchange, hera⟩

/-- **Trials decide half-open periods.** In every run, each half-open period was begun by a
change from open and has let at most as many calls pass as there are trials. While such a period
lasts, a call passes if there is a trial left, and otherwise is answered that there are too
many, however it would have ended; the outcomes of the calls of the period, and no others,
decide when it ends and how. -/
theorem trials_decide (s : BreakerSettings) (start : Nat) (events : List Event)
    (hfew : (run s start events).era < UInt64.size) :
    let t := run s start events
    (∀ m ∈ t.moves, m.change.target = .halfOpen →
        m.change.source = .opened ∧ (t.passesIn m.era).length ≤ s.trials) ∧
      (t.breaker.state = .halfOpen →
        (∃ m ∈ t.moves, m.change = ⟨.opened, .halfOpen⟩ ∧ m.era = t.era) ∧
          (false ∉ t.outcomesIn t.era ∧ (t.outcomesIn t.era).length < s.trials) ∧
          (∀ cb now,
            if (t.passesIn t.era).length = s.trials then
              (t.desk.enter cb now).2 = .rejected (.tooManyRequests s.name) ∧
                ∀ outcome, (t.desk.call cb now outcome).2 =
                  .result (.error (.tooManyRequests s.name))
            else (t.desk.enter cb now).2 = .passed t.breaker.generation) ∧
          ∀ e, Decides s t (t.step e)) := by
  have hbalanced := balanced_run s start events
  have hmoved := moved_run s start events
  have hrationed := rationed_run s start events
  generalize run s start events = t at hfew hbalanced hmoved hrationed ⊢
  refine ⟨?_, ?_⟩
  · intro m hm htarget
    have hleads := hmoved.diagram m hm
    rw [htarget] at hleads
    exact ⟨hleads.eq_opened, hrationed m hm htarget⟩
  · intro hhalf
    have hopen := hbalanced.outcomesIn_halfOpen hfew hhalf
    rw [hmoved.settings] at hopen
    refine ⟨hmoved.begun_halfOpen hhalf, hopen, ?_,
      fun e => hbalanced.step_decides hmoved hfew hhalf e⟩
    intro cb now
    have hentry := enter_of_halfOpen hhalf cb now
    rw [hbalanced.check_halfOpen hhalf, hmoved.settings] at hentry
    split
    · rename_i hfull
      rw [if_pos hfull] at hentry
      refine ⟨hentry, fun outcome => ?_⟩
      rw [Desk.call_of_rejected hentry]
    · rename_i hleft
      rwa [if_neg hleft] at hentry

theorem trials_decide_recovering :
    (run twoTrials 0 recovering).era < UInt64.size ∧
      ∀ cb now, ((run twoTrials 0 recovering).desk.enter cb now).2 =
        .rejected (.tooManyRequests "trials") := by
  refine ⟨by decide, fun cb now => ?_⟩
  have hperiod := (trials_decide twoTrials 0 recovering (by decide)).2 rfl
  have hentry := hperiod.2.2.1 cb now
  rw [if_pos (by decide)] at hentry
  exact hentry.1

end Traffic

end Dialer
