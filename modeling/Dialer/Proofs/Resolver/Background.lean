import Dialer.Proofs.Resolver.Soundness

/-!
# The background in a chronicle

An exchange lets its tasks go on in whole turns. Each turn is a number of steps of a chronicle in
which nothing else comes in between, so whatever holds of all chronicles holds of the exchange when
it settles, jumps or lets time pass.
-/

namespace Dialer.Resolver.Chronicle

variable {v : Chronicle}

/-- No loop stands within a turn. -/
def Rests (v : Chronicle) : Prop :=
  ∀ n, v.points n = none

/-- A watch or a janitor goes on. -/
inductive Turn : Occurrence → Prop
  | go (n : Nat) : Turn (.go n)
  | sweep (n : Nat) : Turn (.sweep n)

/-- Turns take no time. -/
theorem now_turn {o : Occurrence} (hturn : Turn o) : (v.step o).shared.now = v.shared.now := by
  cases hturn with
  | go m =>
      show (v.go m).shared.now = v.shared.now
      unfold go
      split
      · rfl
      · split
        · rfl
        · exact (Loop.step_told _ _).now
  | sweep m =>
      show (v.exchange.run (.janitor m)).shared.now = v.exchange.shared.now
      obtain ⟨janitors, hsame | ⟨due, number, hclear⟩⟩ := sweep_cases v.exchange m
      · rw [hsame]
      · rw [hclear]
        rfl

theorem now_turns (h : v.Sound) {occurrences : List Occurrence}
    (hturns : ∀ o ∈ occurrences, Turn o) : (run occurrences v).shared.now = v.shared.now :=
  run_keeps (P := fun v' => v'.shared.now = v.shared.now) Turn
    (fun _ _ _ hturn hnow => (now_turn hturn).trans hnow) h hturns rfl

/-- Occurrences of some kind lead to an exchange, and to the points at which the loops stood. -/
def Plays (allowed : Occurrence → Prop) (v : Chronicle) (x : Exchange) : Prop :=
  ∃ v', Reaches allowed v v' ∧ v'.exchange = x ∧ v'.points = v.points

variable {allowed : Occurrence → Prop}

theorem plays_nothing (allowed : Occurrence → Prop) (v : Chronicle) : Plays allowed v v.exchange :=
  ⟨v, .refl allowed v, rfl, rfl⟩

theorem Plays.trans {x y : Exchange} (h : Plays allowed v x)
    (hnext : ∀ v' : Chronicle, v'.exchange = x → v'.points = v.points → Plays allowed v' y) :
    Plays allowed v y := by
  obtain ⟨v', hreaches, hexchange, hpoints⟩ := h
  obtain ⟨v'', hreaches', hexchange', hpoints'⟩ := hnext v' hexchange hpoints
  exact ⟨v'', hreaches.trans hreaches', hexchange', hpoints'.trans hpoints⟩

/-- A watch whose token is not cancelled goes on by the next step of its loop. -/
theorem go_of_free {n : Nat} {w : Watch} (hwatch : v.watch? n = some w)
    (hfree : v.shared.isCancelled w.token = false) :
    let l := Loop.standing w (v.points n)
    v.go n = v.carry n w.assignment (l.deeds v.shared) (l.step v.shared).1 (l.step v.shared).2 := by
  unfold go
  rw [hwatch]
  exact if_neg (by simp [hfree])

/-- A loop whose token is not cancelled goes on by its steps. -/
theorem run_go (count : Nat) {n : Nat} {l : Loop} (hwatch : v.watch? n = some l.watch)
    (hpoint : v.points n = l.point) (hfree : v.shared.isCancelled l.watch.token = false) :
    (run (List.replicate count (.go n)) v).exchange =
        { v.exchange with
          shared := (l.run count v.shared).2
          watches := v.exchange.watches.set n (l.run count v.shared).1.watch } ∧
      (run (List.replicate count (.go n)) v).points =
        Function.update v.points n (l.run count v.shared).1.point := by
  induction count generalizing v l with
  | zero =>
      refine ⟨?_, ?_⟩
      · show v.exchange = { v.exchange with watches := v.exchange.watches.set n l.watch }
        obtain ⟨hlt, hsame⟩ := List.getElem?_eq_some_iff.mp hwatch
        rw [← hsame, List.set_getElem_self hlt]
      · show v.points = Function.update v.points n l.point
        rw [← hpoint, Function.update_eq_self]
  | succ count ih =>
      have hgo : v.go n = v.carry n l.watch.assignment (l.deeds v.shared) (l.step v.shared).1
          (l.step v.shared).2 := by
        have hstep := go_of_free hwatch hfree
        rwa [hpoint, standing_eq] at hstep
      have hwatch' : (v.go n).watch? n = some (l.step v.shared).1.watch := by
        rw [hgo]
        exact List.getElem?_set_self (lt_of_watch? hwatch)
      have hpoint' : (v.go n).points n = (l.step v.shared).1.point := by
        rw [hgo]
        exact Function.update_self ..
      have hshared : (v.go n).shared = (l.step v.shared).2 := by
        rw [hgo]
        rfl
      -- its own steps cancel nothing, so the next one is taken as well
      have hfree' : (v.go n).shared.isCancelled (l.step v.shared).1.watch.token = false := by
        rw [hshared, (Loop.step_acts l v.shared).keeps.2.2.1, Shared.isCancelled,
          (Loop.step_told l v.shared).tokens]
        exact hfree
      obtain ⟨hexchange, hpoints⟩ := ih hwatch' hpoint' hfree'
      have hrun : run (List.replicate (count + 1) (.go n)) v =
          run (List.replicate count (.go n)) (v.go n) := rfl
      rw [hrun, hexchange, hpoints, hshared, hgo]
      refine ⟨?_, ?_⟩
      · simp only [carry, List.set_set]
        rfl
      · simp only [carry, Function.update_idem]
        rfl

/-- Where a turn of a watch leads. -/
theorem plays_turn {n : Nat} {w : Watch} (hwatch : v.watch? n = some w)
    (hpoint : v.points n = none) :
    Plays Turn v { v.exchange with
      shared := (w.turn v.shared).2, watches := v.exchange.watches.set n (w.turn v.shared).1 } := by
  by_cases hcancelled : v.shared.isCancelled w.token = true
  · have hturn : w.turn v.shared = ({ w with phase := .stopped }, v.shared) := if_pos hcancelled
    have hgo : v.go n = v.place n { w with phase := .stopped } := by
      unfold go
      rw [hwatch]
      exact if_pos ⟨hpoint, hcancelled⟩
    refine ⟨v.go n, .step (.go n) rfl, ?_, ?_⟩
    · rw [hgo, hturn]
      rfl
    · rw [hgo]
      rfl
  · have hturn : w.turn v.shared = w.proceed v.shared := if_neg hcancelled
    obtain ⟨count, hrun⟩ := Loop.exists_run_proceed w v.shared
    obtain ⟨hexchange, hpoints⟩ := run_go count (l := .ofWatch w) hwatch hpoint
      (by simpa using hcancelled)
    rw [hrun] at hexchange hpoints
    refine ⟨_, ⟨List.replicate count (.go n), ?_, rfl⟩, ?_, ?_⟩
    · intro o ho
      rw [(List.mem_replicate.mp ho).2]
      exact .go n
    · rw [hexchange, hturn]
      rfl
    · rw [hpoints]
      exact Function.update_eq_self_iff.mpr hpoint.symm

/-- **What a task does is done in turns.** -/
theorem plays_task (hrests : v.Rests) (task : Task) : Plays Turn v (v.exchange.run task) := by
  cases task with
  | janitor n => exact ⟨_, .step (.sweep n) rfl, rfl, rfl⟩
  | watch n =>
      cases hwatch : v.exchange.watches[n]? with
      | none =>
          have hsame : v.exchange.run (.watch n) = v.exchange := by
            simp [Exchange.run, hwatch]
          rw [hsame]
          exact plays_nothing Turn v
      | some w =>
          have hrun : v.exchange.run (.watch n) =
              { v.exchange with
                shared := (w.run v.exchange.shared).2
                watches := v.exchange.watches.set n (w.run v.exchange.shared).1 } := by
            simp [Exchange.run, hwatch]
          rw [hrun]
          have hlength := (List.getElem?_eq_some_iff.mp hwatch).1
          -- one turn after another, each of them from where the one before has led
          refine (plays_turn hwatch (hrests n)).trans fun second hsecond hpoints => ?_
          have hwatch2 : second.watch? n = some (w.turn v.exchange.shared).1 := by
            simp only [watch?, hsecond]
            exact List.getElem?_set_self hlength
          refine (plays_turn hwatch2 ((congrFun hpoints n).trans (hrests n))).trans
            fun third hthird hpoints' => ?_
          have hwatch3 : third.watch? n =
              some ((w.turn v.exchange.shared).1.turn second.shared).1 := by
            simp only [watch?, hthird]
            exact List.getElem?_set_self (by simpa [hsecond] using hlength)
          have hlast := plays_turn hwatch3
            ((congrFun hpoints' n).trans ((congrFun hpoints n).trans (hrests n)))
          have hshared2 : second.shared = (w.turn v.exchange.shared).2 := by
            rw [shared, hsecond]
            rfl
          have hshared3 : third.shared =
              ((w.turn v.exchange.shared).1.turn (w.turn v.exchange.shared).2).2 := by
            rw [shared, hthird, hshared2]
          rw [hshared3, hshared2, hthird, hsecond] at hlast
          simp only [List.set_set] at hlast
          exact hlast

theorem plays_tasks (hrests : v.Rests) (tasks : List Task) :
    Plays Turn v (tasks.foldl Exchange.run v.exchange) := by
  induction tasks generalizing v with
  | nil => exact plays_nothing Turn v
  | cons task tasks ih =>
      refine (plays_task hrests task).trans fun v' hexchange hpoints => ?_
      have hrests' : v'.Rests := fun n => (congrFun hpoints n).trans (hrests n)
      rw [List.foldl_cons, ← hexchange]
      exact ih hrests'

/-- The tasks that are due, in their order. -/
def dueTasks (x : Exchange) : List Task :=
  (x.shared.agenda.due x.now).map (·.2)

theorem settle_eq (x : Exchange) :
    x.settle = (dueTasks x).foldl Exchange.run
      (x.apply fun s => { s with agenda := s.agenda.later s.now }) := by
  unfold dueTasks
  rw [List.foldl_map]
  rfl

/-- **An exchange settles in turns**, once what is due has been taken off the agenda. -/
theorem plays_settle (hrests : v.Rests) : Plays Turn (v.step .retire) v.exchange.settle := by
  rw [settle_eq]
  exact plays_tasks (v := v.step .retire) hrests _

end Dialer.Resolver.Chronicle
