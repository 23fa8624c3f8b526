import Dialer.Proofs.Breaker.Outcomes
import Dialer.Proofs.Breaker.Trials
import Mathlib.Data.List.Induction

/-!
# What is reported of a breaker

An operation of a breaker yields the changes of state it has made (`Breaker.changes`) and can tell,
and the desk counts each of them in its metrics and tells the hook of it (`Desk.Reported`). A change
can be told if the end of the generation that it begins fits (`Move.fits`). In a run:

* the changes on record form a path from closed to the present state (`path_run`);
* the hook has been told those that can be told, and the metrics count them (`changes_reported`);
* the metrics count the calls that were rejected (`rejections_counted`).

A hook that raises cuts a report short. It still misses nothing as long as no operation makes two
changes, and while generations are told apart none does (`Orderly.length_transitions_le`): an
operation that has begun a generation by the time hears no outcome for it.
-/

namespace Dialer

namespace Breaker

/-! ## The changes an operation makes -/

/-- The change of state between two breakers, if there is one. -/
def changes (b b' : Breaker) : List Transition :=
  if b'.state = b.state then [] else [⟨b.state, b'.state⟩]

theorem changes_of_eq {b b' : Breaker} (h : b'.state = b.state) : changes b b' = [] :=
  if_pos h

theorem changes_of_ne {b b' : Breaker} (h : b'.state ≠ b.state) :
    changes b b' = [⟨b.state, b'.state⟩] :=
  if_neg h

theorem length_changes_le (b b' : Breaker) : (changes b b').length ≤ 1 := by
  unfold changes
  split <;> simp

theorem reverse_changes (b b' : Breaker) : (changes b b').reverse = changes b b' := by
  unfold changes
  split <;> rfl

theorem refresh_transitions (b : Breaker) (now : Nat) :
    (b.refresh now).2 = changes b (b.refresh now).1 := by
  have hrefreshed := refresh_cases b now
  generalize b.refresh now = r at hrefreshed ⊢
  obtain ⟨b', made⟩ := r
  cases hrefreshed with
  | current _ => exact (changes_of_eq rfl).symm
  | window hstate _ => exact (changes_of_eq hstate.symm).symm
  | trial hstate _ => simp [changes, hstate]

/-- What is due by time can be told: a half-open period has no end to work out. -/
theorem filter_refresh (b : Breaker) (now : Nat) (s : BreakerSettings) :
    (b.refresh now).2.filter (endFits s ·.target now) = (b.refresh now).2 := by
  have hrefreshed := refresh_cases b now
  generalize b.refresh now = r at hrefreshed ⊢
  obtain ⟨b', made⟩ := r
  cases hrefreshed with
  | current _ => rfl
  | window _ _ => rfl
  | trial _ _ => rfl

theorem refresh_settings (b : Breaker) (now : Nat) : (b.refresh now).1.settings = b.settings := by
  unfold refresh
  split
  · cases b.state <;> rfl
  · rfl

theorem ask_settings (b : Breaker) (now : Nat) : (b.ask now).breaker.settings = b.settings := by
  rw [ask_breaker]
  cases (b.refresh now).1.check <;> exact refresh_settings b now

theorem error_of_check {b : Breaker} {error : CallError} (h : b.check = .rejected error) :
    error = .circuitOpen b.settings.name ∨ error = .tooManyRequests b.settings.name := by
  unfold check at h
  cases hstate : b.state with
  | closed => simp [hstate] at h
  | opened => simp_all
  | halfOpen =>
      by_cases hfull : b.counts.requests ≥ b.settings.trials
      · simp_all
      · simp [hstate, hfull] at h

/-- A change is told if the end of the new generation fits. -/
theorem change_transitions {b : Breaker} {state : CircuitState} (h : state ≠ b.state) (now : Nat) :
    (b.change state now).transitions =
      (changes b (b.change state now).breaker).filter (endFits b.settings ·.target now) := by
  rw [change_breaker, changes_of_ne h, List.filter_singleton]
  unfold change
  split <;> simp_all

theorem recordSuccess_transitions (b : Breaker) (now : Nat) :
    (b.recordSuccess now).transitions =
      (changes b (b.recordSuccess now).breaker).filter (endFits b.settings ·.target now) := by
  unfold recordSuccess
  dsimp only
  split
  · rename_i h
    exact change_transitions (b := { b with counts := b.counts.success }) (by simp [h.1]) now
  · simp [changes]

theorem recordFailure_transitions (b : Breaker) (now : Nat) (trips : Counts → Reply Bool) :
    (b.recordFailure now trips).transitions =
      (changes b (b.recordFailure now trips).breaker).filter
        (endFits b.settings ·.target now) := by
  obtain ⟨settings, state, generation, counts, expiry⟩ := b
  unfold recordFailure
  cases state with
  | closed =>
      dsimp only
      cases trips counts.failure with
      | raised => rfl
      | returned answer =>
          cases answer with
          | false => rfl
          | true =>
              exact change_transitions (b := ⟨settings, .closed, generation, counts.failure, expiry⟩)
                (by simp) now
  | halfOpen => exact change_transitions (by simp) now
  | opened => rfl

/-- An outcome can make a change of its own behind the one that was due. -/
theorem record_transitions (b : Breaker) (now : Nat) (generation : UInt64) (success : Bool)
    (trips : Counts → Reply Bool) :
    (b.record now generation success trips).transitions =
      changes b (b.refresh now).1 ++
        (changes (b.refresh now).1 (b.record now generation success trips).breaker).filter
          (endFits b.settings ·.target now) := by
  have hrefresh := refresh_transitions b now
  have hsettings := refresh_settings b now
  unfold record
  generalize b.refresh now = r at hrefresh hsettings ⊢
  obtain ⟨r, made⟩ := r
  dsimp only at hrefresh hsettings ⊢
  subst hrefresh
  rw [← hsettings]
  by_cases hgen : generation = r.generation
  · cases success with
    | true => simp [hgen, recordSuccess_transitions]
    | false => simp [hgen, recordFailure_transitions]
  · simp [hgen, changes_of_eq]

end Breaker

/-! ## Reports -/

namespace BreakerCallbacks

/-- What becomes of the hook when it is told of a change. -/
def notify (cb : BreakerCallbacks) (t : Transition) : Reply Unit :=
  match cb.hook with
  | none => .returned ()
  | some hook => hook t

end BreakerCallbacks

namespace Desk

variable {cb : BreakerCallbacks}

/-- One change is counted, and the hook knows of it, if there is one. -/
def note (cb : BreakerCallbacks) (d : Desk) (t : Transition) : Desk :=
  { d with
    metrics := d.metrics.tally (.breakerTransitions d.breaker.settings.name t)
    notices := if cb.hook.isSome then t :: d.notices else d.notices }

@[simp] theorem note_breaker (d : Desk) (t : Transition) : (d.note cb t).breaker = d.breaker :=
  rfl

@[simp] theorem count_note (d : Desk) (t : Transition) (m : Metric) :
    (d.note cb t).metrics.count m =
      d.metrics.count m + if m = .breakerTransitions d.breaker.settings.name t then 1 else 0 :=
  Metrics.count_tally _ _ _

/-- A report goes on behind a change unless the hook raises. -/
theorem report_cons (d : Desk) (t : Transition) (rest : List Transition) :
    report cb d (t :: rest) =
      match cb.notify t with
      | .raised => (d.note cb t, .raised)
      | .returned _ => report cb (d.note cb t) rest := by
  rw [report]
  unfold BreakerCallbacks.notify note
  cases cb.hook with
  | none => rfl
  | some hook => cases hook t <;> rfl

theorem count_report_rejections (d : Desk) (made : List Transition) (name : String) :
    (report cb d made).1.metrics.count (.breakerRejections name) =
      d.metrics.count (.breakerRejections name) := by
  induction made generalizing d with
  | nil => rfl
  | cons t rest ih =>
      rw [report_cons]
      cases cb.notify t with
      | raised => simp
      | returned _ => simp [ih]

/-- No hook raises, or there is no second change behind one for which it could. -/
def Unbroken (cb : BreakerCallbacks) (made : List Transition) : Prop :=
  (∀ t, cb.notify t = .returned ()) ∨ made.length ≤ 1

/-- The changes are counted, and the hook has been told them, if there is one. -/
structure Reported (cb : BreakerCallbacks) (made : List Transition) (d d' : Desk) : Prop where
  transitions : ∀ change,
    d'.metrics.count (.breakerTransitions d'.breaker.settings.name change) =
      d.metrics.count (.breakerTransitions d'.breaker.settings.name change) + made.count change
  notices : cb.hook ≠ none → d'.notices = made.reverse ++ d.notices

/-- An unbroken report notes every change. -/
theorem report_unbroken (d : Desk) {made : List Transition} (h : Unbroken cb made) :
    (report cb d made).1 = made.foldl (note cb) d := by
  rcases h with hcalm | hshort
  · induction made generalizing d with
    | nil => rfl
    | cons t rest ih => rw [report_cons, hcalm t, ih, List.foldl_cons]
  · match made, hshort with
    | [], _ => rfl
    | [t], _ => rw [report_cons]; cases cb.notify t <;> rfl

theorem foldl_note_breaker (d : Desk) (made : List Transition) :
    (made.foldl (note cb) d).breaker = d.breaker := by
  induction made generalizing d with
  | nil => rfl
  | cons t rest ih => simp [ih]

theorem foldl_note_reported (d : Desk) (made : List Transition) :
    Reported cb made d (made.foldl (note cb) d) := by
  refine ⟨fun change => ?_, fun hhook => ?_⟩
  · rw [foldl_note_breaker]
    induction made generalizing d with
    | nil => rfl
    | cons t rest ih =>
        have hrest := ih (d.note cb t)
        simp only [note_breaker, count_note, Metric.breakerTransitions.injEq, true_and] at hrest
        have hcount :
            (t :: rest).count change = rest.count change + if change = t then 1 else 0 := by
          by_cases hc : change = t <;> simp [hc, eq_comm]
        rw [List.foldl_cons, hrest, hcount]
        omega
  · have hsome : cb.hook.isSome = true := Option.isSome_iff_ne_none.mpr hhook
    induction made generalizing d with
    | nil => rfl
    | cons t rest ih => simp [ih, note, hsome]

theorem report_reported (d : Desk) (b : Breaker) {made : List Transition} (h : Unbroken cb made) :
    Reported cb made d (report cb { d with breaker := b } made).1 := by
  rw [report_unbroken _ h]
  exact { foldl_note_reported { d with breaker := b } made with }

/-! ## The operations of a desk -/

/-- Asking to pass is a report, and a rejection is counted behind it. -/
theorem enter_desk (cb : BreakerCallbacks) (d : Desk) (now : Nat) :
    let reported := (report cb { d with breaker := (d.breaker.ask now).breaker }
      (d.breaker.ask now).transitions).1
    (d.enter cb now).1 =
      match (d.enter cb now).2 with
      | .rejected _ =>
        { reported with
          metrics := reported.metrics.tally (.breakerRejections reported.breaker.settings.name) }
      | _ => reported := by
  unfold enter
  dsimp only
  rcases report cb { d with breaker := (d.breaker.ask now).breaker }
    (d.breaker.ask now).transitions with ⟨d', reply⟩
  cases reply with
  | raised => rfl
  | returned _ => cases (d.breaker.ask now).answer <;> rfl

/-- Was the call rejected? -/
def Entry.isRejection : Entry → Bool
  | .rejected _ => true
  | _ => false

theorem count_enter_rejections (cb : BreakerCallbacks) (d : Desk) (now : Nat) :
    (d.enter cb now).1.metrics.count (.breakerRejections d.breaker.settings.name) =
      d.metrics.count (.breakerRejections d.breaker.settings.name) +
        if (d.enter cb now).2.isRejection then 1 else 0 := by
  rw [enter_desk]
  cases (d.enter cb now).2 with
  | passed generation => exact count_report_rejections _ _ _
  | raised => exact count_report_rejections _ _ _
  | rejected error =>
      simp only [Metrics.count_tally, report_breaker, Breaker.ask_settings,
        count_report_rejections, Entry.isRejection]

/-- The reasons to reject a call. -/
theorem error_of_rejected {d : Desk} {now : Nat} {error : CallError}
    (h : (d.enter cb now).2 = .rejected error) :
    error = .circuitOpen d.breaker.settings.name ∨
      error = .tooManyRequests d.breaker.settings.name := by
  rcases enter_entry cb d now with hraised | hentry
  · rw [hraised] at h
    cases h
  · rw [hentry, Breaker.ask_answer] at h
    rw [← Breaker.refresh_settings d.breaker now]
    cases hcheck : (d.breaker.refresh now).1.check with
    | admitted generation => simp [hcheck] at h
    | rejected reason =>
        simp only [hcheck, Entry.rejected.injEq] at h
        exact h ▸ Breaker.error_of_check hcheck

theorem enter_reported (d : Desk) (now : Nat)
    (h : Unbroken cb (d.breaker.ask now).transitions) :
    Reported cb (d.breaker.ask now).transitions d (d.enter cb now).1 := by
  have hreported := report_reported d (d.breaker.ask now).breaker h
  rw [enter_desk]
  split
  · refine ⟨fun change => ?_, hreported.notices⟩
    simp [Metrics.count_tally, hreported.transitions change]
  · exact hreported

theorem observe_desk (cb : BreakerCallbacks) (d : Desk) (now : Nat) :
    (d.observe cb now).1 =
      (report cb { d with breaker := (d.breaker.refresh now).1 } (d.breaker.refresh now).2).1 := by
  unfold observe Breaker.observe
  rcases d.breaker.refresh now with ⟨r, made⟩
  dsimp only
  rcases report cb { d with breaker := r } made with ⟨d', _ | _⟩ <;> rfl

end Desk

/-- Can the change be told? It can if the end of the generation that it begins fits. -/
def Move.fits (s : BreakerSettings) (m : Move) : Bool :=
  Breaker.endFits s m.change.target m.time

namespace Traffic

open Breaker

variable {s : BreakerSettings} {t : Traffic} {e : Event}

/-- The changes on record that can be told. -/
def told (s : BreakerSettings) (t : Traffic) : List Transition :=
  (t.moves.filter (·.fits s)).map (·.change)

/-! ## The changes of an event -/

theorem carry_moves (t : Traffic) (now : Nat) (d : Desk) :
    (t.carry now d).moves.map (·.change) =
      changes t.breaker d.breaker ++ t.moves.map (·.change) := by
  unfold carry changes
  dsimp only
  split <;> rfl

theorem carry_told (s : BreakerSettings) (t : Traffic) (now : Nat) (d : Desk) :
    (t.carry now d).told s =
      (changes t.breaker d.breaker).filter (endFits s ·.target now) ++ t.told s := by
  unfold carry changes told
  dsimp only
  split
  · rfl
  · cases hfits : endFits s d.breaker.state now <;> simp [Move.fits, hfits]

theorem turn_told (s : BreakerSettings) (t : Traffic) (now : Nat) :
    (t.turn now).told s = (t.breaker.refresh now).2.reverse ++ t.told s := by
  rw [refresh_transitions, reverse_changes, ← refresh_transitions, ← filter_refresh _ _ s,
    refresh_transitions]
  exact carry_told s t now _

theorem tell_told (t : Traffic) (e : Event) (p : Pass) (success : Bool) :
    ((t.turn e.now).tell e.now p success
      (t.desk.record e.callbacks e.now p.generation success).1).told t.breaker.settings =
      (t.breaker.record e.now p.generation success e.callbacks.trips).transitions.reverse ++
        t.told t.breaker.settings := by
  have hcarry := carry_told t.breaker.settings ((t.turn e.now).settle p success) e.now
    (t.desk.record e.callbacks e.now p.generation success).1
  have hturn := turn_told t.breaker.settings t e.now
  rw [refresh_transitions, reverse_changes] at hturn
  rw [record_transitions, List.reverse_append, ← List.filter_reverse, reverse_changes,
    reverse_changes, List.append_assoc, ← hturn, ← Desk.record_breaker]
  exact hcarry

/-- Whoever asks to pass leaves the desk as it then is, with the change that was due. -/
theorem step_of_enter (hact : e.act = .enter) :
    (t.step e).desk = (t.desk.enter e.callbacks e.now).1 ∧
      (t.step e).moves = (t.turn e.now).moves := by
  unfold step
  rw [hact]
  dsimp only
  rcases t.desk.enter e.callbacks e.now with ⟨d, entry⟩
  cases entry with
  | passed generation => exact ⟨rfl, rfl⟩
  | rejected error => exact ⟨rfl, rfl⟩
  | raised => cases (t.breaker.ask e.now).answer <;> exact ⟨rfl, rfl⟩

theorem era_le_carry (t : Traffic) (now : Nat) (d : Desk) : t.era ≤ (t.carry now d).era :=
  Nat.le_add_right _ _

/-- An outcome that is heard has found no change due. -/
theorem Orderly.length_transitions_le (h : Orderly t) {now : Nat}
    (hfew : (t.turn now).era < UInt64.size) {p : Pass} (hp : p ∈ t.afloat) (success : Bool)
    (trips : Counts → Reply Bool) :
    (t.breaker.record now p.generation success trips).transitions.length ≤ 1 := by
  have htold := record_told t.breaker now p.generation success trips
  rw [record_transitions]
  by_cases hgen : p.generation = (t.breaker.refresh now).1.generation
  · -- the generation of the call is the present one, so none has begun
    have hturn := orderly_kept.turn t now h
    have hown := (hturn.generation_eq_iff hfew (h.mem_of_afloat hp)).mp hgen
    have hera := (h.mem_passes p (h.mem_of_afloat hp)).1
    have hrefreshed := refresh_cases t.breaker now
    have hsame : changes t.breaker (t.breaker.refresh now).1 = [] := by
      rw [← refresh_transitions]
      generalize hr : t.breaker.refresh now = r at hrefreshed
      obtain ⟨b, made⟩ := r
      cases hrefreshed with
      | current _ => rfl
      | window _ _ => rfl
      | trial _ _ =>
          have henter : (t.turn now).era = t.era + 1 := by
            unfold turn
            rw [hr, carry_enter rfl]
          omega
    rw [hsame, List.nil_append]
    exact Nat.le_trans (List.length_filter_le _ _) (length_changes_le _ _)
  · rw [htold.eq_of_ne hgen, changes_of_eq rfl, List.filter_nil, List.append_nil]
    exact length_changes_le _ _

/-- The changes an event has made and can tell are on record, and an unbroken report tells them;
besides, a rejection is counted. -/
structure Makes (t : Traffic) (e : Event) (made : List Transition) : Prop where
  told : (t.step e).told t.breaker.settings = made.reverse ++ t.told t.breaker.settings
  reported : Desk.Unbroken e.callbacks made →
    Desk.Reported e.callbacks made t.desk (t.step e).desk
  rejections :
    (t.step e).desk.metrics.count (.breakerRejections t.breaker.settings.name) =
      t.desk.metrics.count (.breakerRejections t.breaker.settings.name) +
        (t.answer? e).toList.countP (·.isRejection)
  length_le : Orderly t → (t.step e).era < UInt64.size → made.length ≤ 1

theorem makes_of_enter (hact : e.act = .enter) : Makes t e (t.breaker.refresh e.now).2 := by
  obtain ⟨hdesk, hmoves⟩ := step_of_enter (t := t) hact
  rw [← ask_transitions]
  refine ⟨?_, fun hunbroken => ?_, ?_, fun _ _ => ?_⟩
  · unfold told
    rw [hmoves, ask_transitions]
    exact turn_told _ t e.now
  · rw [hdesk]
    exact Desk.enter_reported _ _ hunbroken
  · rw [hdesk, Desk.count_enter_rejections]
    simp [answer?, hact, List.countP_singleton]
  · rw [ask_transitions, refresh_transitions]
    exact length_changes_le _ _

/-- A report makes all that an event makes which lets no one ask to pass. -/
theorem makes_of_report {b : Breaker} {made : List Transition} (hanswer : t.answer? e = none)
    (hdesk : (t.step e).desk = (Desk.report e.callbacks { t.desk with breaker := b } made).1)
    (htold : (t.step e).told t.breaker.settings = made.reverse ++ t.told t.breaker.settings)
    (hlength : Orderly t → (t.step e).era < UInt64.size → made.length ≤ 1) : Makes t e made where
  told := htold
  reported hunbroken := hdesk ▸ Desk.report_reported _ _ hunbroken
  rejections := by
    rw [hdesk, Desk.count_report_rejections, hanswer]
    rfl
  length_le := hlength

theorem makes_of_observe (hact : e.act = .observe) : Makes t e (t.breaker.refresh e.now).2 := by
  refine makes_of_report (b := (t.breaker.refresh e.now).1) (by simp [answer?, hact]) ?_ ?_ ?_
  · rw [step_of_observe hact]
    exact Desk.observe_desk _ _ _
  · rw [step_of_observe hact]
    exact turn_told _ t e.now
  · intro _ _
    rw [refresh_transitions]
    exact length_changes_le _ _

theorem makes_of_tell {p : Pass} {success : Bool} (hanswer : t.answer? e = none)
    (hp : p ∈ t.afloat)
    (hstep : t.step e = (t.turn e.now).tell e.now p success
      (t.desk.record e.callbacks e.now p.generation success).1) :
    Makes t e (t.breaker.record e.now p.generation success e.callbacks.trips).transitions := by
  let told := t.breaker.record e.now p.generation success e.callbacks.trips
  refine makes_of_report (b := told.breaker) hanswer ?_ ?_ ?_
  · rw [hstep]
    exact Desk.record_desk _ _ _ _ _
  · rw [hstep]
    exact tell_told t e p success
  · intro horderly hfew
    refine horderly.length_transitions_le (Nat.lt_of_le_of_lt ?_ hfew) hp success _
    rw [hstep]
    exact era_le_carry ((t.turn e.now).settle p success) _ _

theorem makes_nothing (hanswer : t.answer? e = none) (hdesk : (t.step e).desk = t.desk)
    (hmoves : (t.step e).moves = t.moves) : Makes t e [] :=
  makes_of_report (b := t.breaker) hanswer hdesk (by unfold told; rw [hmoves]; rfl)
    (fun _ _ => Nat.zero_le _)

theorem step_makes (t : Traffic) (e : Event) : ∃ made, Makes t e made := by
  have hforms := t.step_forms e
  generalize hstep : t.step e = t' at hforms
  cases hforms with
  | enters hact => exact ⟨_, makes_of_enter hact⟩
  | tells p outcome success hclosing hverdict =>
      have hanswer := answer?_of_ne (t := t) (act_ne_of_closing hclosing)
      exact ⟨_, makes_of_tell hanswer (mem_of_closing? hclosing) hstep⟩
  | loses p outcome hclosing hverdict =>
      have hanswer := answer?_of_ne (t := t) (act_ne_of_closing hclosing)
      exact ⟨[], makes_nothing hanswer (by rw [hstep]; rfl) (by rw [hstep]; rfl)⟩
  | observes hact => exact ⟨_, makes_of_observe hact⟩
  | rests hentry hobserve hclosing =>
      exact ⟨[], makes_nothing (answer?_of_ne hentry) (by rw [hstep]) (by rw [hstep])⟩

/-! ## The path of a run -/

/-- Changes, the latest first, that lead from one state to another. -/
inductive Path (origin : CircuitState) : List Transition → CircuitState → Prop
  | stay : Path origin [] origin
  | change {earlier : List Transition} {c : Transition} (h : Path origin earlier c.source)
      (hne : c.target ≠ c.source) : Path origin (c :: earlier) c.target

theorem Path.ne {origin target : CircuitState} {changes : List Transition}
    (h : Path origin changes target) : ∀ c ∈ changes, c.target ≠ c.source := by
  induction h with
  | stay => simp
  | change _ hne ih =>
      intro c hc
      rcases List.mem_cons.mp hc with rfl | hearlier
      · exact hne
      · exact ih c hearlier

theorem Path.carry {origin : CircuitState}
    (h : Path origin (t.moves.map (·.change)) t.breaker.state) (now : Nat) (d : Desk) :
    Path origin ((t.carry now d).moves.map (·.change)) (t.carry now d).breaker.state := by
  rw [carry_moves]
  show Path origin _ d.breaker.state
  by_cases hsame : d.breaker.state = t.breaker.state
  · rw [changes_of_eq hsame, hsame]
    exact h
  · rw [changes_of_ne hsame]
    exact Path.change (c := ⟨t.breaker.state, d.breaker.state⟩) h hsame

theorem path_kept (origin : CircuitState) :
    Kept fun t => Path origin (t.moves.map (·.change)) t.breaker.state where
  turn _ now h := h.carry now _
  aside t d hd h := by
    show Path origin (t.moves.map (·.change)) d.breaker.state
    rw [hd]
    exact h
  board t _ _ d _ hd h := by
    show Path origin (t.moves.map (·.change)) d.breaker.state
    rw [hd]
    exact h
  tell t now p success d _ _ h :=
    Path.carry (t := t.settle p success) h now d
  lose _ _ _ h := h

theorem path_run (s : BreakerSettings) (start : Nat) (events : List Event) :
    Path .closed ((run s start events).moves.map (·.change)) (run s start events).breaker.state :=
  (path_kept .closed).run Path.stay events

/-- The changes that there are. -/
def diagram : List Transition :=
  [⟨.closed, .opened⟩, ⟨.opened, .halfOpen⟩, ⟨.halfOpen, .closed⟩, ⟨.halfOpen, .opened⟩]

theorem mem_diagram {c : Transition} (hleads : Leads c.source c.target)
    (hne : c.target ≠ c.source) : c ∈ diagram := by
  obtain ⟨source, target⟩ := c
  cases hleads with
  | window => exact absurd rfl hne
  | trips => decide
  | trial => decide
  | closes => decide
  | reopens => decide

/-! ## Along a run -/

theorem era_kept (n : Nat) : Kept fun t => n ≤ t.era where
  turn t now h := Nat.le_trans h (era_le_carry t now _)
  aside _ _ _ h := h
  board _ _ _ _ _ _ h := h
  tell t now p success d _ _ h := Nat.le_trans h (era_le_carry (t.settle p success) now d)
  lose _ _ _ h := h

theorem era_le_step (t : Traffic) (e : Event) : t.era ≤ (t.step e).era :=
  (era_kept t.era).step t e (Nat.le_refl _)

theorem run_concat (s : BreakerSettings) (start : Nat) (events : List Event) (e : Event) :
    run s start (events ++ [e]) = (run s start events).step e :=
  after_concat _ events e

theorem run_settings (s : BreakerSettings) (start : Nat) (events : List Event) :
    (run s start events).breaker.settings = s :=
  (moved_run s start events).settings

/-- The metrics count the calls that were rejected. -/
theorem rejections_counted (s : BreakerSettings) (start : Nat) (events : List Event) :
    (run s start events).desk.metrics.count (.breakerRejections s.name) =
      ((Traffic.start s start).answers events).countP (·.isRejection) := by
  induction events using List.reverseRecOn with
  | nil => rfl
  | append_singleton events e ih =>
      obtain ⟨made, hmakes⟩ := step_makes (run s start events) e
      have hrejections := hmakes.rejections
      rw [run_settings] at hrejections
      rw [run_concat, hrejections, ih, answers_concat, List.countP_append]
      rfl

/-- The metrics count the changes on record that can be told, and the hook has been told them, as
long as no hook raises or generations are told apart. -/
theorem changes_reported (s : BreakerSettings) (start : Nat) (events : List Event)
    (h : (∀ e ∈ events, ∀ t, e.callbacks.notify t = .returned ()) ∨
      (run s start events).era < UInt64.size) :
    (∀ change, (run s start events).desk.metrics.count (.breakerTransitions s.name change) =
        ((run s start events).told s).count change) ∧
      ((∀ e ∈ events, e.callbacks.hook ≠ none) →
        (run s start events).desk.notices = (run s start events).told s) := by
  -- the last event is split off: the assumption is on the era at the end, and eras only grow
  induction events using List.reverseRecOn with
  | nil => exact ⟨fun _ => rfl, fun _ => rfl⟩
  | append_singleton events e ih =>
      rw [run_concat] at h
      have hera := era_le_step (run s start events) e
      obtain ⟨hcounted, hnoticed⟩ := ih <| h.imp
        (fun hcalm e' he' => hcalm e' (List.mem_append_left _ he')) (Nat.lt_of_le_of_lt hera)
      obtain ⟨made, hmakes⟩ := step_makes (run s start events) e
      have hunbroken : Desk.Unbroken e.callbacks made := h.imp
        (fun hcalm => hcalm e (by simp)) (hmakes.length_le (orderly_run s start events))
      have hreported := hmakes.reported hunbroken
      have htold := hmakes.told
      have hsettings := run_settings s start (events ++ [e])
      rw [run_settings] at htold
      rw [run_concat] at hsettings ⊢
      refine ⟨fun change => ?_, fun hhooks => ?_⟩
      · have hcount := hreported.transitions change
        rw [show (((run s start events).step e).desk.breaker.settings) = s from hsettings] at hcount
        rw [hcount, hcounted, htold, List.count_append, List.count_reverse, Nat.add_comm]
      · rw [hreported.notices (hhooks e (by simp)), htold,
          hnoticed (fun e' he' => hhooks e' (List.mem_append_left _ he'))]

/-- **Changes, hook, metrics and answers agree.** In every run the changes of state form a path
from closed to the present state along the edges of the diagram. The metrics count as many
rejections as calls were rejected; such a call is answered that the circuit is open or that there
are too many, and is not run. The metrics count each change that can be told as often as it was
made, with or without a hook, and a hook has been told just these changes, in their order; only
hooks that raise after `2 ^ 64` generations are excepted. So metrics and hook have the whole path
if the end of every generation that it began fits. -/
theorem changes_agree (s : BreakerSettings) (start : Nat) (events : List Event) :
    let t := run s start events
    let changes := t.moves.map (·.change)
    let answers := (Traffic.start s start).answers events
    Path .closed changes t.breaker.state ∧ (∀ c ∈ changes, c ∈ diagram) ∧
      t.desk.metrics.count (.breakerRejections s.name) = answers.countP (·.isRejection) ∧
      (∀ cb now error, (t.desk.enter cb now).2 = .rejected error →
        (error = .circuitOpen s.name ∨ error = .tooManyRequests s.name) ∧
          ∀ outcome, t.desk.call cb now outcome =
            ((t.desk.enter cb now).1, .result (.error error))) ∧
      ((∀ e ∈ events, ∀ c, e.callbacks.notify c = .returned ()) ∨ t.era < UInt64.size →
        (∀ c, t.desk.metrics.count (.breakerTransitions s.name c) = (t.told s).count c) ∧
          ((∀ e ∈ events, e.callbacks.hook ≠ none) → t.desk.notices = t.told s)) ∧
      ((∀ m ∈ t.moves, m.fits s = true) → t.told s = changes) := by
  have hpath := path_run s start events
  have hmoved := moved_run s start events
  refine ⟨hpath, fun c hc => ?_, rejections_counted s start events,
    fun cb now error hrejected => ?_, changes_reported s start events, fun hfits => ?_⟩
  · obtain ⟨m, hm, rfl⟩ := List.mem_map.mp hc
    exact mem_diagram (hmoved.diagram m hm) (hpath.ne _ hc)
  · have herror := Desk.error_of_rejected hrejected
    rw [show (run s start events).desk.breaker.settings = s from hmoved.settings] at herror
    exact ⟨herror, Desk.call_of_rejected hrejected⟩
  · unfold told
    rw [List.filter_eq_self.mpr hfits]

/-- Without a hook, too. -/
example :
    let t := run twoTrials 0 recovering
    t.moves.map (·.change) = [⟨.opened, .halfOpen⟩, ⟨.closed, .opened⟩] ∧ t.desk.notices = [] ∧
      t.desk.metrics.count (.breakerTransitions "trials" ⟨.opened, .halfOpen⟩) = 1 := by
  decide

/-- An event with a hook that returns. -/
def heeded (now : Nat) (act : Act) : Event :=
  { Event.plain now act with
    callbacks := { (Event.plain now act).callbacks with hook := some fun _ => .returned () } }

/-- The failure that opens such a circuit raises. Then the circuit is open, and neither the hook
nor the metrics have heard of it. -/
theorem unending_opens_untold :
    let before := run unending 0 [heeded 0 .enter]
    let e := heeded 1 (.leave 0 (.returns (.error (.failed "boom"))))
    let t := before.step e
    (before.desk.record e.callbacks e.now 0 false).2 = .raised ∧ t.breaker.state = .opened ∧
      t.moves.map (·.change) = [⟨.closed, .opened⟩] ∧ t.desk.notices = [] ∧
      ∀ c, t.desk.metrics.count (.breakerTransitions "unending" c) = 0 :=
  ⟨rfl, rfl, rfl, rfl, fun _ => rfl⟩

end Traffic

end Dialer
