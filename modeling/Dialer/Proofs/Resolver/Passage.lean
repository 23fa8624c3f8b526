import Dialer.Proofs.Resolver.Background

/-!
# Time as an exchange lets it pass

`Exchange.passTo` goes from one instant on the agenda to the next and settles at each. In a
chronicle time passes no timer by (`Occurrence.pass`). The two agree (`Chronicle.reaches_passTo`)
because whatever waits for an instant is on the agenda for it (`Exchange.Prompt`): a lookup for its
answer and its deadline, a janitor for its next clear. While an exchange settles this is so of all
tasks but those that are due and have not gone on yet; these are `pending`.
-/

namespace Dialer

theorem Rhythm.lt_catchUp (r : Rhythm) (now : Nat) : now < (r.catchUp now).firesAt := by
  induction r using Rhythm.catchUp.induct now with
  | case1 r hdue ih =>
      unfold catchUp
      rw [dif_pos hdue]
      exact ih
  | case2 r hahead =>
      unfold catchUp
      rw [dif_neg hahead]
      exact Nat.lt_of_not_le hahead

/-- The first clear of a rhythm is still to come. -/
theorem Rhythm.lt_start? {every : Duration} {now : Nat} {r : Rhythm}
    (h : start? every now = some r) : now < r.firesAt := by
  unfold start? at h
  split at h
  · rename_i hpos
    obtain ⟨due, hdue, rfl⟩ := Option.map_eq_some_iff.mp h
    obtain ⟨rfl, -⟩ := Clock.instant?_eq_some.mp hdue
    refine Nat.lt_of_lt_of_le ?_ (Clock.le_tick _)
    exact Nat.lt_add_of_pos_right hpos
  · cases h

namespace Resolver

/-- A watch waits for an instant. -/
def Watch.WaitsFor (w : Watch) (t : Nat) : Prop :=
  ∃ lookup, w.phase = .looking lookup ∧ t ∈ lookup.answersAt.toList ++ lookup.deadline.toList

/-- A lookup that hangs has no answer to come. -/
def Watch.Honest (w : Watch) : Prop :=
  ∀ lookup, w.phase = .looking lookup → lookup.finding = .hangs → lookup.answersAt = none

/-- A watch goes on, and what it waits for then is still to come and on the agenda. -/
structure Watch.Onward (w : Watch) (s : Shared) (w' : Watch) (s' : Shared) : Prop where
  number : w'.number = w.number
  honest : w'.Honest
  now : s'.now = s.now
  agenda : s.agenda.Grows s'.agenda
  waits : ∀ t, w'.WaitsFor t →
    s.now < t ∧ ((t, .watch w.number) ∈ s'.agenda.entries ∨ w.WaitsFor t)

namespace Watch

variable {w w' w'' : Watch} {s s' s'' : Shared}

theorem Onward.trans (h : w.Onward s w' s') (h' : w'.Onward s' w'' s'') : w.Onward s w'' s'' where
  number := h'.number.trans h.number
  honest := h'.honest
  now := h'.now.trans h.now
  agenda := h.agenda.trans h'.agenda
  waits := by
    intro t ht
    obtain ⟨hlater, hnew | hbefore⟩ := h'.waits t ht
    · rw [h.now] at hlater
      rw [h.number] at hnew
      exact ⟨hlater, .inl hnew⟩
    · obtain ⟨hlater, hmem | hwaits⟩ := h.waits t hbefore
      · exact ⟨hlater, .inl (h'.agenda.kept _ hmem)⟩
      · exact ⟨hlater, .inr hwaits⟩

/-- A watch that does not look anything up waits for no instant. -/
theorem onward_of_phase (hnumber : w'.number = w.number)
    (hphase : ∀ lookup, w'.phase ≠ .looking lookup) (hnow : s'.now = s.now)
    (hagenda : s'.agenda = s.agenda) : w.Onward s w' s' where
  number := hnumber
  honest := fun lookup hlooking => absurd hlooking (hphase lookup)
  now := hnow
  agenda := hagenda ▸ .refl _
  waits := by
    rintro t ⟨lookup, hlooking, -⟩
    exact absurd hlooking (hphase lookup)

theorem fail_onward (w : Watch) (s : Shared) : w.Onward s (w.fail s).1 (w.fail s).2 :=
  onward_of_phase rfl (fun _ => Phase.noConfusion) rfl rfl

theorem conclude_onward (w : Watch) (s : Shared) {finding : Finding} (hends : finding ≠ .hangs) :
    w.Onward s (w.conclude s finding).1 (w.conclude s finding).2 := by
  cases finding with
  | ips entries => exact onward_of_phase rfl (fun _ => Phase.noConfusion) rfl rfl
  | fails error => exact fail_onward w s
  | hangs => exact absurd rfl hends

theorem mem_alarm (w : Watch) (s : Shared) (due : Option Nat) {entry : Nat × Task} :
    entry ∈ (w.alarm s due).agenda.entries ↔
      (∃ t ∈ due, entry = (t, .watch w.number)) ∨ entry ∈ s.agenda.entries := by
  cases due with
  | none => simp [alarm]
  | some t => simp [alarm, Shared.remind, Agenda.add, Agenda.mem_insert]

theorem lt_of_not_isPast {now t : Nat} {due : Option Nat} (h : ¬ isPast now due = true)
    (ht : t ∈ due.toList) : now < t := by
  obtain rfl := Option.mem_toList.mp ht
  exact Nat.lt_of_not_le fun hle => h (decide_eq_true hle)

theorem await_onward (w : Watch) (s : Shared) (lookup : Pending)
    (hcomes : ∀ t ∈ lookup.answersAt, s.now ≤ t)
    (hhonest : lookup.finding = .hangs → lookup.answersAt = none) :
    w.Onward s (w.await s lookup).1 (w.await s lookup).2 := by
  unfold await
  split
  · rename_i hatonce
    refine conclude_onward w s fun hhangs => ?_
    rw [hhonest hhangs] at hatonce
    cases hatonce
  · split
    · exact fail_onward w s
    · rename_i hanswer hdeadline
      have hfirst := told_alarm w.assignment w.box s w lookup.answersAt
      have hsecond := told_alarm w.assignment w.box (w.alarm s lookup.answersAt) w lookup.deadline
      refine ⟨rfl, ?_, hsecond.now.trans hfirst.now, hfirst.agenda.trans hsecond.agenda, ?_⟩
      · rintro other hlooking
        obtain rfl := Phase.looking.inj hlooking
        exact hhonest
      · rintro t ⟨other, hlooking, ht⟩
        obtain rfl := Phase.looking.inj hlooking
        rcases List.mem_append.mp ht with hanswers | hgivesUp
        · have hsome : lookup.answersAt = some t := Option.mem_toList.mp hanswers
          -- an answer that is there at this instant was not waited for
          have hle := hcomes t hsome
          have hne : t ≠ s.now := by
            rintro rfl
            exact hanswer hsome
          refine ⟨by omega, .inl ?_⟩
          exact (mem_alarm ..).mpr (.inr ((mem_alarm ..).mpr (.inl ⟨t, hsome, rfl⟩)))
        · refine ⟨lt_of_not_isPast hdeadline hgivesUp, .inl ?_⟩
          exact (mem_alarm ..).mpr (.inl ⟨t, Option.mem_toList.mp hgivesUp, rfl⟩)

theorem le_answerTime {answer : LookupAnswer} {t : Nat} (h : answerTime s answer = some t) :
    s.now ≤ t := by
  unfold answerTime at h
  split at h
  · cases h
  · obtain rfl := Option.some.inj h
    split
    · exact Nat.le_refl _
    · have htick := Clock.le_tick (s.now + min answer.duration.toNanos Clock.longestPause)
      unfold Clock.wake
      omega

theorem look_onward (w : Watch) (s : Shared) : w.Onward s (w.look s).1 (w.look s).2 := by
  let asked := s.ask w.assignment.backend w.assignment.host
  have hawait := await_onward w asked.2 ⟨asked.1.finding, answerTime asked.2 asked.1,
    Clock.deadline? asked.2.now w.assignment.limit⟩ (fun t ht => le_answerTime ht)
    Loop.answerTime_eq_none
  exact ⟨hawait.number, hawait.honest, hawait.now, hawait.agenda, hawait.waits⟩

theorem cycle_onward (w : Watch) (s : Shared) : w.Onward s (w.cycle s).1 (w.cycle s).2 := by
  unfold cycle
  split
  · exact onward_of_phase rfl (fun _ => Phase.noConfusion) rfl rfl
  · exact look_onward w s

theorem turn_onward (s : Shared) (hhonest : w.Honest) : w.Onward s (w.turn s).1 (w.turn s).2 := by
  unfold turn
  split
  · exact onward_of_phase rfl (fun _ => Phase.noConfusion) rfl rfl
  · unfold proceed
    split
    · split
      · have hcycle := cycle_onward { w with wanted := false } s
        refine ⟨hcycle.number, hcycle.honest, hcycle.now, hcycle.agenda, ?_⟩
        intro t ht
        obtain ⟨hlater, hnew | ⟨lookup, hlooking, hmem⟩⟩ := hcycle.waits t ht
        · exact ⟨hlater, .inl hnew⟩
        · exact ⟨hlater, .inr ⟨lookup, hlooking, hmem⟩⟩
      · exact onward_of_phase rfl (fun _ => Phase.noConfusion) rfl rfl
    · exact cycle_onward w s
    · rename_i lookup hlooking
      split
      · rename_i hanswered
        refine conclude_onward w s fun hhangs => ?_
        rw [hhonest lookup hlooking hhangs] at hanswered
        cases hanswered
      · split
        · exact fail_onward w s
        · rename_i hanswer hdeadline
          refine ⟨rfl, hhonest, rfl, .refl _, ?_⟩
          rintro t ⟨other, hsame, ht⟩
          obtain rfl := Phase.looking.inj (hlooking.symm.trans hsame)
          refine ⟨?_, .inr ⟨_, hsame, ht⟩⟩
          rcases List.mem_append.mp ht with hanswers | hgivesUp
          · exact lt_of_not_isPast hanswer hanswers
          · exact lt_of_not_isPast hdeadline hgivesUp
    · rename_i hparked
      exact onward_of_phase rfl (by simp [hparked]) rfl rfl
    · rename_i hstopped
      exact onward_of_phase rfl (by simp [hstopped]) rfl rfl

/-- **A watch that has gone on waits for what is still to come.** -/
theorem run_onward (s : Shared) (hhonest : w.Honest) : w.Onward s (w.run s).1 (w.run s).2 := by
  have hfirst := turn_onward s hhonest
  have hsecond := turn_onward (w.turn s).2 hfirst.honest
  exact (hfirst.trans hsecond).trans (turn_onward _ hsecond.honest)

end Watch

/-- A janitor goes on, and its next clear is still to come and on the agenda. -/
structure Janitor.Onward (j : Janitor) (s : Shared) (j' : Janitor) (s' : Shared) : Prop where
  number : j'.number = j.number
  now : s'.now = s.now
  agenda : s.agenda.Grows s'.agenda
  fires : j'.running = true → s.now < j'.rhythm.firesAt ∧
    ((j'.rhythm.firesAt, .janitor j.number) ∈ s'.agenda.entries ∨
      j.running = true ∧ j'.rhythm = j.rhythm)

theorem Janitor.run_onward (j : Janitor) (s : Shared) : j.Onward s (j.run s).1 (j.run s).2 := by
  rcases Chronicle.janitor_run j s with ⟨-, hrun⟩ | ⟨-, -, -, hrun⟩ | ⟨-, hidle, hrun⟩
  · rw [hrun]
    exact ⟨rfl, rfl, .refl _, Bool.noConfusion⟩
  · rw [hrun]
    refine ⟨rfl, rfl, s.agenda.grows_add _ _, fun _ => ⟨Rhythm.lt_catchUp _ _, .inl ?_⟩⟩
    exact Agenda.mem_insert.mpr (.inl rfl)
  · rw [hrun]
    refine ⟨rfl, rfl, .refl _, fun hrunning => ⟨?_, .inr ⟨hrunning, rfl⟩⟩⟩
    exact Nat.lt_of_not_le fun hdue => hidle ⟨hrunning, hdue⟩

namespace Exchange

/-- A task waits for an instant. -/
inductive Waits (x : Exchange) : Task → Nat → Prop
  | watch (n : Nat) (w : Watch) (hw : x.watches[n]? = some w) (t : Nat) (ht : w.WaitsFor t) :
      Waits x (.watch n) t
  | janitor (n : Nat) (j : Janitor) (hj : x.janitors[n]? = some j) (hrunning : j.running = true) :
      Waits x (.janitor n) j.rhythm.firesAt

/-- Whatever a task waits for is still to come and on the agenda, pending tasks excepted. -/
structure Prompt (pending : List Task) (x : Exchange) : Prop where
  watches : ∀ (n : Nat) (w : Watch), x.watches[n]? = some w → w.number = n ∧ w.Honest
  janitors : ∀ (n : Nat) (j : Janitor), x.janitors[n]? = some j → j.number = n
  waits : ∀ task t, x.Waits task t →
    (x.now < t ∧ (t, task) ∈ x.shared.agenda.entries) ∨ (t ≤ x.now ∧ task ∈ pending)

variable {x y : Exchange} {pending pending' : List Task}

theorem prompt_of_waits (h : x.Prompt pending)
    (hwatches : ∀ (n : Nat) (w : Watch), y.watches[n]? = some w → w.number = n ∧ w.Honest)
    (hjanitors : ∀ (n : Nat) (j : Janitor), y.janitors[n]? = some j → j.number = n)
    (hnow : y.now = x.now)
    (hagenda : ∀ entry ∈ x.shared.agenda.entries, entry ∈ y.shared.agenda.entries)
    (hwaits : ∀ task t, y.Waits task t →
      (x.now < t ∧ (t, task) ∈ y.shared.agenda.entries) ∨
        (x.Waits task t ∧ (t ≤ x.now → task ∈ pending → task ∈ pending'))) :
    y.Prompt pending' := by
  refine ⟨hwatches, hjanitors, fun task t ht => ?_⟩
  rw [hnow]
  rcases hwaits task t ht with hnew | ⟨hbefore, hstill⟩
  · exact .inl hnew
  · rcases h.waits task t hbefore with ⟨hlater, hmem⟩ | ⟨hdue, hpending⟩
    · exact .inl ⟨hlater, hagenda _ hmem⟩
    · exact .inr ⟨hdue, hstill hdue hpending⟩

/-- Where time and the janitors stand still, and nobody looks up what was not looked up before, all
is as prompt as it was. -/
theorem prompt_of_looking (h : x.Prompt pending) (hjanitors : y.janitors = x.janitors)
    (hnow : y.now = x.now)
    (hagenda : ∀ entry ∈ x.shared.agenda.entries, entry ∈ y.shared.agenda.entries)
    (hwatches : ∀ (n : Nat) (w' : Watch), y.watches[n]? = some w' → w'.number = n ∧
      ∀ lookup, w'.phase = .looking lookup →
        ∃ w, x.watches[n]? = some w ∧ w.phase = .looking lookup) : y.Prompt pending := by
  refine prompt_of_waits h ?_ (hjanitors ▸ h.janitors) hnow hagenda ?_
  · intro n w' hw'
    obtain ⟨hnumber, hlooking⟩ := hwatches n w' hw'
    refine ⟨hnumber, fun lookup hphase => ?_⟩
    obtain ⟨w, hw, hbefore⟩ := hlooking lookup hphase
    exact (h.watches n w hw).2 lookup hbefore
  · intro task t hwaits
    refine .inr ⟨?_, fun _ h => h⟩
    cases hwaits with
    | watch n w' hw' _ ht =>
        obtain ⟨lookup, hphase, hmem⟩ := ht
        obtain ⟨w, hw, hbefore⟩ := (hwatches n w' hw').2 lookup hphase
        exact .watch n w hw t ⟨lookup, hbefore, hmem⟩
    | janitor n j hj hrunning => exact .janitor n j (hjanitors ▸ hj) hrunning

/-- A task that has gone on is not pending any more. -/
theorem still_pending {task other : Task} {t : Nat} (hother : other ≠ task) :
    t ≤ x.now → other ∈ task :: pending → other ∈ pending :=
  fun _ hpending => (List.mem_cons.mp hpending).resolve_left hother

theorem prompt_watch {n : Nat} {w w' : Watch} {s' : Shared} (h : x.Prompt (.watch n :: pending))
    (hw : x.watches[n]? = some w) (honward : w.Onward x.shared w' s') :
    Prompt pending { x with shared := s', watches := x.watches.set n w' } := by
  obtain ⟨hnumber, -⟩ := h.watches n w hw
  refine prompt_of_waits h ?_ h.janitors honward.now honward.agenda.kept ?_
  · intro m u hu
    rcases Chronicle.mem_set hu with ⟨rfl, rfl⟩ | ⟨-, hsame⟩
    · exact ⟨honward.number.trans hnumber, honward.honest⟩
    · exact h.watches m u hsame
  · intro task t hwaits
    cases hwaits with
    | watch m u hu _ ht =>
        rcases Chronicle.mem_set hu with ⟨rfl, rfl⟩ | ⟨hne, hsame⟩
        · obtain ⟨hlater, hnew | hbefore⟩ := honward.waits t ht
          · rw [hnumber] at hnew
            exact .inl ⟨hlater, hnew⟩
          · exact .inr ⟨.watch m w hw t hbefore, fun hdue => absurd hlater (Nat.not_lt_of_le hdue)⟩
        · exact .inr ⟨.watch m u hsame t ht, still_pending fun hsame => hne (Task.watch.inj hsame)⟩
    | janitor m j hj hrunning =>
        exact .inr ⟨.janitor m j hj hrunning, still_pending Task.noConfusion⟩

theorem prompt_janitor {n : Nat} {j j' : Janitor} {s' : Shared}
    (h : x.Prompt (.janitor n :: pending)) (hj : x.janitors[n]? = some j)
    (honward : j.Onward x.shared j' s') :
    Prompt pending { x with shared := s', janitors := x.janitors.set n j' } := by
  have hnumber := h.janitors n j hj
  refine prompt_of_waits h h.watches ?_ honward.now honward.agenda.kept ?_
  · intro m k hk
    rcases Chronicle.mem_set hk with ⟨rfl, rfl⟩ | ⟨-, hsame⟩
    · exact honward.number.trans hnumber
    · exact h.janitors m k hsame
  · intro task t hwaits
    cases hwaits with
    | watch m u hu _ ht => exact .inr ⟨.watch (x := x) m u hu t ht, still_pending Task.noConfusion⟩
    | janitor m k hk hrunning =>
        rcases Chronicle.mem_set hk with ⟨rfl, rfl⟩ | ⟨hne, hsame⟩
        · obtain ⟨hlater, hnew | ⟨hbefore, hsame⟩⟩ := honward.fires hrunning
          · rw [hnumber] at hnew
            exact .inl ⟨hlater, hnew⟩
          · refine .inr ⟨?_, fun hdue => absurd hlater (Nat.not_lt_of_le hdue)⟩
            rw [hsame]
            exact .janitor m j hj hbefore
        · exact .inr ⟨.janitor m k hsame hrunning,
            still_pending fun hsame => hne (Task.janitor.inj hsame)⟩

theorem prompt_begin {j : Janitor} (h : x.Prompt []) (hnumber : j.number = x.janitors.length)
    (hlater : x.now < j.rhythm.firesAt) :
    Prompt [] { x with shared := j.schedule x.shared, janitors := x.janitors ++ [j] } := by
  refine prompt_of_waits h h.watches ?_ rfl (Agenda.grows_add ..).kept ?_
  · intro n k hk
    rcases Chronicle.mem_append hk with hold | ⟨rfl, rfl⟩
    · exact h.janitors n k hold
    · exact hnumber
  · intro task t hwaits
    cases hwaits with
    | watch n w hw _ ht => exact .inr ⟨.watch (x := x) n w hw t ht, fun _ h => h⟩
    | janitor n k hk hrunning =>
        rcases Chronicle.mem_append hk with hold | ⟨rfl, rfl⟩
        · exact .inr ⟨.janitor n k hold hrunning, fun _ h => h⟩
        · rw [← hnumber]
          exact .inl ⟨hlater, Agenda.mem_insert.mpr (.inl rfl)⟩

/-- A task that is not there has nothing to wait for. -/
theorem prompt_absent {task : Task} (h : x.Prompt (task :: pending))
    (habsent : ∀ t, ¬ x.Waits task t) : x.Prompt pending :=
  prompt_of_waits h h.watches h.janitors rfl (fun _ h => h) fun _ t hwaits =>
    .inr ⟨hwaits, still_pending fun hsame => habsent t (hsame ▸ hwaits)⟩

/-- **A task that goes on is not pending any more.** -/
theorem prompt_run {task : Task} (h : x.Prompt (task :: pending)) :
    (x.run task).Prompt pending := by
  cases task with
  | watch n =>
      cases hw : x.watches[n]? with
      | none =>
          have hsame : x.run (.watch n) = x := by simp [Exchange.run, hw]
          rw [hsame]
          refine prompt_absent h fun t hwaits => ?_
          cases hwaits with
          | watch _ w hsome => rw [hw] at hsome; cases hsome
      | some w =>
          have hrun : x.run (.watch n) =
              { x with
                shared := (w.run x.shared).2
                watches := x.watches.set n (w.run x.shared).1 } := by
            simp [Exchange.run, hw]
          rw [hrun]
          exact prompt_watch h hw (Watch.run_onward _ (h.watches n w hw).2)
  | janitor n =>
      rcases Chronicle.run_janitor x n with ⟨hnone, hsame⟩ | ⟨j, hj, hrun⟩
      · rw [hsame]
        refine prompt_absent h fun t hwaits => ?_
        cases hwaits with
        | janitor _ j hsome => rw [hnone] at hsome; cases hsome
      · rw [hrun]
        exact prompt_janitor h hj (j.run_onward x.shared)

theorem prompt_tasks {tasks : List Task} (h : x.Prompt tasks) :
    (tasks.foldl Exchange.run x).Prompt [] := by
  induction tasks generalizing x with
  | nil => exact h
  | cons task tasks ih => exact ih (prompt_run h)

/-- **Once an exchange has settled, whatever a task waits for is still to come.** -/
theorem prompt_settle (h : x.Prompt []) (hsorted : x.shared.agenda.Sorted) {now : Nat} :
    (x.apply fun s => { s with now }).settle.Prompt [] := by
  rw [Chronicle.settle_eq]
  refine prompt_tasks ⟨h.watches, h.janitors, fun task t hwaits => ?_⟩
  have hbefore : x.Waits task t := by
    cases hwaits with
    | watch n w hw _ ht => exact .watch (x := x) n w hw t ht
    | janitor n j hj hrunning => exact .janitor (x := x) n j hj hrunning
  -- what is on the agenda is either taken off it, and then it goes on, or still to come
  rcases h.waits task t hbefore with ⟨-, hmem⟩ | ⟨-, hnone⟩
  · by_cases hdue : t ≤ now
    · refine .inr ⟨hdue, List.mem_map.mpr ⟨(t, task), ?_, rfl⟩⟩
      exact Agenda.mem_due hsorted hmem hdue
    · refine .inl ⟨Nat.lt_of_not_le hdue, ?_⟩
      rw [← x.shared.agenda.due_append_later now] at hmem
      rcases List.mem_append.mp hmem with hearly | hlate
      · exact absurd (Agenda.due_of_mem_due hearly) hdue
      · exact hlate
  · cases hnone

end Exchange

namespace Chronicle

variable {v : Chronicle}

theorem waits_of_mem_timers {t : Nat} (ht : t ∈ v.timers) : ∃ task, v.exchange.Waits task t := by
  rcases List.mem_append.mp ht with hjanitor | hwatch
  · obtain ⟨j, hj, rfl⟩ := List.mem_map.mp hjanitor
    obtain ⟨hmem, hrunning⟩ := List.mem_filter.mp hj
    obtain ⟨n, hn⟩ := List.getElem?_of_mem hmem
    exact ⟨_, .janitor n j hn hrunning⟩
  · obtain ⟨w, hw, hmem⟩ := List.mem_flatMap.mp hwatch
    obtain ⟨n, hn⟩ := List.getElem?_of_mem hw
    split at hmem
    · rename_i lookup hlooking
      exact ⟨_, .watch n w hn t ⟨lookup, hlooking, hmem⟩⟩
    · cases hmem

/-- Nothing is left undone: no loop stands within a turn, and whatever is waited for is still to
come. -/
structure Calm (v : Chronicle) : Prop where
  sound : v.Sound
  rests : v.Rests
  prompt : v.exchange.Prompt []

theorem calm_start (directory : Directory) : (start directory).Calm where
  sound := sound_start directory
  rests := fun _ => rfl
  prompt := by
    refine ⟨?_, ?_, ?_⟩
    · intro n w hw
      cases hw
    · intro n j hj
      cases hj
    · intro task t hwaits
      cases hwaits with
      | watch n w hw => cases hw
      | janitor n j hj => cases hj

/-- Time passes, and what is due is done. Timers are passed by only if that is allowed. -/
inductive Passing (disturbed : Bool) : Occurrence → Prop
  | turn {o : Occurrence} (h : Turn o) : Passing disturbed o
  | pass (now : Nat) : Passing disturbed (.pass now)
  | jump (now : Nat) (h : disturbed = true) : Passing disturbed (.jump now)
  | retire : Passing disturbed .retire

theorem calm_janitor (h : v.Calm) (every : Duration) (token : Token) :
    (v.step (.janitor every token)).Calm := by
  have hsound := sound_step h.sound (.janitor every token)
  have hstep : v.step (.janitor every token) =
      { v with exchange := (v.exchange.janitor? every token).getD v.exchange } := rfl
  rw [hstep] at hsound ⊢
  unfold Exchange.janitor? at hsound ⊢
  cases hrhythm : Rhythm.start? every v.exchange.now with
  | none => exact h
  | some rhythm =>
      rw [hrhythm] at hsound
      exact ⟨hsound, h.rests, Exchange.prompt_begin h.prompt rfl (Rhythm.lt_start? hrhythm)⟩

/-- **Whatever else happens leaves nothing undone.** -/
theorem calm_step (h : v.Calm) {o : Occurrence} (hpassing : ¬ Passing true o) :
    (v.step o).Calm := by
  by_cases hjanitor : ∃ every token, o = .janitor every token
  · obtain ⟨every, token, rfl⟩ := hjanitor
    exact calm_janitor h every token
  have hsound := sound_step h.sound o
  have htakes := v.step_takes o h.sound.within
  generalize v.step o = v' at hsound htakes ⊢
  refine ⟨hsound, ?_, ?_⟩
  -- loops do not go on here, so they rest where they did
  · cases htakes with
    | acts n w deeds l shared ho => exact absurd (ho ▸ .turn (.go n)) hpassing
    | alters => exact h.rests
    | begins => exact h.rests
    | aside _ haside =>
        intro n
        rw [haside.points]
        exact h.rests n
  · cases htakes with
    | acts n w deeds l shared ho => exact absurd (ho ▸ .turn (.go n)) hpassing
    | alters n w phase wanted agenda hwatch hwithin hlooking hstopped hagenda =>
        refine Exchange.prompt_of_looking h.prompt rfl rfl hagenda.kept fun m u hu => ?_
        rcases mem_set hu with ⟨rfl, rfl⟩ | ⟨-, hsame⟩
        · exact ⟨(h.prompt.watches _ w hwatch).1,
            fun lookup hphase => ⟨w, hwatch, hlooking lookup hphase⟩⟩
        · exact ⟨(h.prompt.watches m u hsame).1, fun _ hphase => ⟨u, hsame, hphase⟩⟩
    | begins options target w agenda ho hassignment hnumber hbox htoken hphase hagenda =>
        refine Exchange.prompt_of_looking h.prompt rfl rfl hagenda.kept fun m u hu => ?_
        rcases mem_append hu with hold | ⟨rfl, rfl⟩
        · exact ⟨(h.prompt.watches m u hold).1, fun _ hphase => ⟨u, hold, hphase⟩⟩
        · refine ⟨hnumber, fun lookup hlooking => ?_⟩
          rw [hphase] at hlooking
          cases hlooking
    | aside _ haside =>
        have hclock : v'.shared.now = v.shared.now ∧
            v'.exchange.janitors = v.exchange.janitors := by
          refine haside.clock.resolve_left fun htiming => ?_
          cases o with
          | sweep n => exact hpassing (.turn (.sweep n))
          | janitor every token => exact hjanitor ⟨every, token, rfl⟩
          | pass now => exact hpassing (.pass now)
          | jump now => exact hpassing (.jump now rfl)
          | _ => cases htiming
        have hkept := haside.kept.resolve_left fun hretire => hpassing (hretire ▸ .retire)
        refine Exchange.prompt_of_looking h.prompt hclock.2 hclock.1 hkept fun m u hu => ?_
        rw [haside.watches] at hu
        exact ⟨(h.prompt.watches m u hu).1, fun _ hphase => ⟨u, hu, hphase⟩⟩

variable {disturbed : Bool}

/-- However it has become another instant, an exchange settles in turns. -/
theorem reaches_settle (h : v.Calm) {o : Occurrence} (ho : Passing disturbed o) {now : Nat}
    (hstep : v.step o = v.apply fun s => { s with now }) :
    ∃ v', v'.Calm ∧ Reaches (Passing disturbed) v v' ∧ v'.exchange = v.exchange.jumpTo now ∧
      v'.exchange.now = now := by
  have hretired := sound_step (sound_step h.sound o) .retire
  rw [hstep] at hretired
  obtain ⟨_, ⟨turns, hturns, rfl⟩, hexchange, hpoints⟩ :=
    plays_settle (v := v.apply fun s => { s with now }) h.rests
  refine ⟨_, ⟨sound_run hretired turns, ?_, ?_⟩, ?_, hexchange, now_turns hretired hturns⟩
  · exact fun n => (congrFun hpoints n).trans (h.rests n)
  · rw [hexchange]
    exact Exchange.prompt_settle h.prompt h.sound.agenda
  · refine (Reaches.step ho hstep).trans ((Reaches.step .retire rfl).trans ?_)
    exact ⟨turns, fun o ho => .turn (hturns o ho), rfl⟩

/-- At another instant tasks go on late that were due before. -/
theorem reaches_jumpTo (h : v.Calm) {now : Nat} (hle : v.exchange.now ≤ now) :
    ∃ v', v'.Calm ∧ Reaches (Passing true) v v' ∧ v'.exchange = v.exchange.jumpTo now ∧
      v'.exchange.now = now :=
  reaches_settle h (.jump now rfl) (if_pos hle)

/-- No task goes on late if nothing on the agenda comes before. -/
theorem reaches_next (h : v.Calm) {now : Nat} (hle : v.exchange.now ≤ now)
    (hfirst : ∀ entry ∈ v.exchange.shared.agenda.entries, v.exchange.now < entry.1 →
      now ≤ entry.1) :
    ∃ v', v'.Calm ∧ Reaches (Passing disturbed) v v' ∧ v'.exchange = v.exchange.jumpTo now ∧
      v'.exchange.now = now := by
  have htimers : ∀ t ∈ v.timers, now ≤ t := by
    intro t ht
    obtain ⟨task, hwaits⟩ := waits_of_mem_timers ht
    rcases h.prompt.waits task t hwaits with ⟨hlater, hmem⟩ | ⟨-, hnone⟩
    · exact hfirst _ hmem hlater
    · cases hnone
  exact reaches_settle h (.pass now) (if_pos ⟨hle, htimers⟩)

/-- **An exchange lets time pass in turns,** from each instant to the next one at which something is
due, and leaves nothing undone. -/
theorem reaches_passFrom (h : v.Calm) {x : Exchange} (hx : v.exchange = x) {now limit : Nat}
    (hnow : x.now = now) (hle : now ≤ limit) :
    ∃ v', v'.Calm ∧ Reaches (Passing disturbed) v v' ∧ v'.exchange = x.passFrom now limit ∧
      v'.exchange.now = limit := by
  -- on the instants at which something is due: what was reached at one is calm again
  induction x, now using Exchange.passFrom.induct limit generalizing v with
  | case1 x now u hu hnext ih =>
      subst hx hnow
      have hpass : v.exchange.passFrom v.exchange.now limit =
          (v.exchange.jumpTo u).passFrom u limit := by
        rw [Exchange.passFrom, hnext]
      obtain ⟨v1, hcalm1, hfirst, hexchange1, hnow1⟩ :=
        reaches_next h (Nat.le_of_lt hu.1) fun entry hentry hlater =>
          (Agenda.next?_first h.sound.agenda hentry hlater).1 _ hnext
      obtain ⟨v2, hcalm2, hrest, hexchange2, hnow2⟩ :=
        ih hcalm1 hexchange1 (hexchange1 ▸ hnow1) hu.2
      rw [hpass]
      exact ⟨v2, hcalm2, hfirst.trans hrest, hexchange2, hnow2⟩
  | case2 x now hnext =>
      subst hx hnow
      have hpass : v.exchange.passFrom v.exchange.now limit = v.exchange.jumpTo limit := by
        rw [Exchange.passFrom, hnext]
      rw [hpass]
      exact reaches_next h hle fun entry hentry hlater =>
        Nat.le_of_lt ((Agenda.next?_first h.sound.agenda hentry hlater).2 hnext)

theorem reaches_passTo (disturbed : Bool) (h : v.Calm) {limit : Nat}
    (hle : v.exchange.now ≤ limit) :
    ∃ v', v'.Calm ∧ Reaches (Passing disturbed) v v' ∧ v'.exchange = v.exchange.passTo limit ∧
      v'.exchange.now = limit :=
  reaches_passFrom h rfl rfl hle

end Chronicle

end Resolver

end Dialer
