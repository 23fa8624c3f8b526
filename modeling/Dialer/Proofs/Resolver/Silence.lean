import Dialer.Proofs.Resolver.Background

/-!
# Silence after cancellation

Between two turns a watch looks at its token before anything else. So once its token is cancelled,
by its own close or from above, a watch that stands there does no more deeds, whatever else happens
(`silent_run`): a cycle that waits for its lookup is abandoned, also if the answer or the deadline
comes at this very instant. The watch has stopped as soon as it goes on, and it does go on at the
instant of the cancellation, since that is what cancelling puts on the agenda.
-/

namespace Dialer

/-- A token is, or stands below, another. -/
def Token.Heeds (t above : Token) : Prop :=
  above.lineage ≠ [] ∧ above.lineage <:+ t.lineage

namespace Cancellations

theorem isCancelled_iff {c : Cancellations} {t : Token} :
    c.isCancelled t = true ↔ ∃ mark ∈ t.lineage, mark ∈ c.cancelled := by
  simp [isCancelled]

theorem isCancelled_mono {c c' : Cancellations} (h : ∀ mark ∈ c.cancelled, mark ∈ c'.cancelled)
    {t : Token} (ht : c.isCancelled t = true) : c'.isCancelled t = true := by
  obtain ⟨mark, hmark, hcancelled⟩ := isCancelled_iff.mp ht
  exact isCancelled_iff.mpr ⟨mark, hmark, h mark hcancelled⟩

theorem isCancelled_cancel_of_heeds (c : Cancellations) {t above : Token} (h : t.Heeds above) :
    (c.cancel above).isCancelled t = true := by
  obtain ⟨lineage⟩ := above
  obtain ⟨hsome, hbelow⟩ := h
  dsimp only at hsome hbelow
  cases lineage with
  | nil => exact absurd rfl hsome
  | cons mark rest =>
      refine isCancelled_iff.mpr ⟨mark, hbelow.subset List.mem_cons_self, ?_⟩
      exact List.mem_append_left _ List.mem_cons_self

/-- Cancelling a token once more does nothing to tokens that stand below it, and nothing to those
that have not its mark. -/
theorem isCancelled_cancel_again (c : Cancellations) {t u : Token} (ht : c.isCancelled t = true)
    (hu : t.lineage <:+ u.lineage ∨ ∀ mark ∈ t.lineage.head?, mark ∉ u.lineage) :
    (c.cancel t).isCancelled u = c.isCancelled u := by
  obtain ⟨mark, hmark, hcancelled⟩ := isCancelled_iff.mp ht
  rcases hu with hbelow | hapart
  · have hbefore : c.isCancelled u = true :=
      isCancelled_iff.mpr ⟨mark, hbelow.subset hmark, hcancelled⟩
    rw [hbefore]
    exact isCancelled_iff.mpr ⟨mark, hbelow.subset hmark, List.mem_append_right _ hcancelled⟩
  · rw [Bool.eq_iff_iff, isCancelled_iff, isCancelled_iff]
    constructor
    · rintro ⟨other, hother, hnow⟩
      rcases List.mem_append.mp hnow with hnew | hbefore
      · obtain ⟨lineage⟩ := t
        cases lineage with
        | nil => cases hmark
        | cons first rest =>
            obtain rfl : other = first := by simpa using hnew
            exact absurd hother (hapart other rfl)
      · exact ⟨other, hother, hbefore⟩
    · rintro ⟨other, hother, hbefore⟩
      exact ⟨other, hother, List.mem_append_right _ hbefore⟩

end Cancellations

namespace Resolver.Chronicle

variable {v : Chronicle} {n : Nat} {w : Watch}

/-- What cancels a watch. -/
inductive Silences (n : Nat) (w : Watch) : Occurrence → Prop
  | close : Silences n w (.close n)
  | cancel {above : Token} (h : w.token.Heeds above) : Silences n w (.cancel above)

/-- A watch that stands between two turns, with a cancelled token. -/
structure Silent (n : Nat) (w : Watch) (v : Chronicle) : Prop where
  watch : ∃ phase wanted, v.watch? n = some { w with phase, wanted }
  between : v.points n = none
  cancelled : v.shared.isCancelled w.token = true

def HasStopped (v : Chronicle) (n : Nat) : Prop :=
  ∃ w, v.watch? n = some w ∧ w.phase = .stopped

/-- Nothing but a watch and what is cancelled or due may be different. -/
structure Unmoved (n : Nat) (v v' : Chronicle) : Prop where
  shared : ∃ tokens agenda, v'.shared = { v.shared with tokens, agenda }
  janitors : v'.exchange.janitors = v.exchange.janitors
  watches : ∀ m, m ≠ n → v'.watch? m = v.watch? m
  points : v'.points = v.points
  journal : v'.journal = v.journal

theorem unmoved_cancel (n : Nat) (v : Chronicle) (t : Token) :
    Unmoved n v (v.step (.cancel t)) ∧
      (v.step (.cancel t)).shared.tokens = v.shared.tokens.cancel t := by
  obtain ⟨agenda, hsame, -, -⟩ := cancel_eq v.exchange t
  have hstep : v.step (.cancel t) =
      v.apply fun s => { s with tokens := s.tokens.cancel t, agenda } := by
    show { v with exchange := v.exchange.cancel t } = _
    rw [hsame]
    rfl
  rw [hstep]
  exact ⟨⟨⟨_, agenda, rfl⟩, rfl, fun _ _ => rfl, rfl, rfl⟩, rfl⟩

/-- To close a watch is to cancel its token. -/
theorem close_eq (hwatch : v.watch? n = some w) :
    v.step (.close n) = v.step (.cancel w.token) := by
  have hclose : v.exchange.close (some n) = v.exchange.cancel w.token := by
    have hfound : v.exchange.watches[n]? = some w := hwatch
    simp [Exchange.close, hfound]
  simp only [step, via, hclose]

theorem close_none (hwatch : v.watch? n = none) : v.step (.close n) = v := by
  have hclose : v.exchange.close (some n) = v.exchange := by
    simp [Exchange.close, show v.exchange.watches[n]? = none from hwatch]
  simp only [step, via, hclose]

/-- Every silencing is the cancelling of a token that the watch heeds. -/
theorem silences_eq (h : v.Sound) (hwatch : v.watch? n = some w) {stop : Occurrence}
    (hstop : Silences n w stop) :
    ∃ above, w.token.Heeds above ∧ v.step stop = v.step (.cancel above) := by
  cases hstop with
  | close => exact ⟨w.token, ⟨h.rooted n w hwatch, List.suffix_rfl⟩, close_eq hwatch⟩
  | cancel hheeds => exact ⟨_, hheeds, rfl⟩

theorem silent_of_silences (h : v.Sound) (hwatch : v.watch? n = some w)
    (hbetween : v.points n = none) {stop : Occurrence} (hstop : Silences n w stop) :
    Silent n w (v.step stop) ∧ Unmoved n v (v.step stop) ∧
      (v.shared.now, .watch n) ∈ (v.step stop).shared.agenda.entries := by
  obtain ⟨above, hheeds, hsame⟩ := silences_eq h hwatch hstop
  have hcancelled := v.shared.tokens.isCancelled_cancel_of_heeds hheeds
  obtain ⟨agenda, hcancel, -, hdue⟩ := cancel_eq v.exchange above
  have hstep : v.step (.cancel above) =
      v.apply fun s => { s with tokens := s.tokens.cancel above, agenda } := by
    show { v with exchange := v.exchange.cancel above } = _
    rw [hcancel]
    rfl
  have hreminded := hdue w (List.mem_of_getElem? hwatch) hcancelled
  rw [h.numbered n w hwatch] at hreminded
  refine ⟨⟨⟨w.phase, w.wanted, ?_⟩, ?_, ?_⟩, ?_, ?_⟩
  · rw [hsame, hstep]
    exact hwatch
  · rw [hsame, hstep]
    exact hbetween
  · rw [hsame, hstep]
    exact hcancelled
  · rw [hsame]
    exact (unmoved_cancel n v above).1
  · rw [hsame, hstep]
    exact hreminded

/-- **A silent watch stays silent, and does nothing,** whatever happens; one that has stopped does
not go on again. -/
theorem silent_step (h : v.Sound) (hsilent : Silent n w v) (o : Occurrence) :
    Silent n w (v.step o) ∧ (v.step o).journal.of n = v.journal.of n ∧
      (v.HasStopped n → (v.step o).HasStopped n) := by
  obtain ⟨⟨phase, wanted, hwatch⟩, hbetween, hcancelled⟩ := hsilent
  have hkept {v' : Chronicle} (hsame : v'.watch? n = v.watch? n) :
      v.HasStopped n → v'.HasStopped n := by
    rintro ⟨w', hw', hstopped⟩
    exact ⟨w', hsame.trans hw', hstopped⟩
  have htakes := v.step_takes o h.within
  generalize v.step o = v' at htakes ⊢
  cases htakes with
  | acts m u deeds l shared ho hu hfree hacts htold =>
      -- a step from between two turns is only taken with a token that is not cancelled
      have hne : n ≠ m := by
        rintro rfl
        obtain rfl := Option.some.inj (hwatch.symm.trans hu)
        have huncancelled := hfree hbetween
        rw [hcancelled] at huncancelled
        cases huncancelled
      have hsame : (v.carry m u.assignment deeds l shared).watch? n = v.watch? n :=
        List.getElem?_set_ne hne.symm
      refine ⟨⟨⟨phase, wanted, hsame.trans hwatch⟩, ?_, ?_⟩, of_append_ne hne .., hkept hsame⟩
      · exact (Function.update_of_ne hne _ _).trans hbetween
      · rw [shared_carry, Shared.isCancelled, htold.tokens]
        exact hcancelled
  | alters m u phase' wanted' agenda hu hwithin hlooking hstopped hagenda =>
      by_cases hne : m = n
      · subst hne
        obtain rfl := Option.some.inj (hwatch.symm.trans hu)
        have hself := List.getElem?_set_self (a := { w with phase := phase', wanted := wanted' })
          (lt_of_watch? hwatch)
        refine ⟨⟨⟨phase', wanted', hself⟩, hbetween, hcancelled⟩, rfl, ?_⟩
        rintro ⟨w', hw', hphase⟩
        obtain rfl := Option.some.inj (hwatch.symm.trans hw')
        exact ⟨_, hself, hstopped hphase⟩
      · have hsame := List.getElem?_set_ne (l := v.exchange.watches)
          (a := { u with phase := phase', wanted := wanted' }) hne
        exact ⟨⟨⟨phase, wanted, hsame.trans hwatch⟩, hbetween, hcancelled⟩, rfl, hkept hsame⟩
  | begins options target u agenda ho hassignment hnumber hbox htoken hphase hagenda =>
      have hsame : (v.exchange.watches ++ [u])[n]? = v.exchange.watches[n]? :=
        List.getElem?_append_left (lt_of_watch? hwatch)
      exact ⟨⟨⟨phase, wanted, hsame.trans hwatch⟩, hbetween, hcancelled⟩, rfl, hkept hsame⟩
  | aside _ haside =>
      have hsame : v'.watch? n = v.watch? n := by rw [watch?, watch?, haside.watches]
      refine ⟨⟨⟨phase, wanted, hsame.trans hwatch⟩, ?_, ?_⟩, ?_, hkept hsame⟩
      · rw [haside.points]
        exact hbetween
      · exact Cancellations.isCancelled_mono haside.cancelled hcancelled
      · rw [haside.journal]

theorem silent_run (h : v.Sound) (hsilent : Silent n w v) (occurrences : List Occurrence) :
    Silent n w (run occurrences v) ∧ (run occurrences v).journal.of n = v.journal.of n ∧
      (v.HasStopped n → (run occurrences v).HasStopped n) := by
  refine run_keeps (P := fun v' => Silent n w v' ∧ v'.journal.of n = v.journal.of n ∧
    (v.HasStopped n → v'.HasStopped n)) (fun _ => True) ?_ h (fun _ _ => trivial)
    ⟨hsilent, rfl, id⟩
  rintro v' o hsound - ⟨hsilent', hjournal, hstopped⟩
  obtain ⟨hnext, hsame, hstays⟩ := silent_step hsound hsilent' o
  exact ⟨hnext, hsame.trans hjournal, fun hbefore => hstays (hstopped hbefore)⟩

/-- As soon as a silent watch goes on it has stopped, and that is all. -/
theorem go_of_silent (hsilent : Silent n w v) :
    ∃ phase wanted, v.watch? n = some { w with phase, wanted } ∧
      v.step (.go n) = v.place n { w with phase := .stopped, wanted } := by
  obtain ⟨⟨phase, wanted, hwatch⟩, hbetween, hcancelled⟩ := hsilent
  refine ⟨phase, wanted, hwatch, ?_⟩
  show v.go n = _
  unfold go
  rw [hwatch]
  exact if_pos ⟨hbetween, hcancelled⟩

/-- A request changes no more than the watch, and what is due. -/
theorem unmoved_request (v : Chronicle) (n : Nat) :
    Unmoved n v (v.step (.request n)) ∧
      (v.step (.request n)).shared.tokens = v.shared.tokens := by
  have hstep : v.step (.request n) = { v with exchange := v.exchange.request n } := rfl
  rw [hstep]
  unfold Exchange.request
  cases hwatch : v.exchange.watches[n]? with
  | none => exact ⟨⟨⟨_, _, rfl⟩, rfl, fun _ _ => rfl, rfl, rfl⟩, rfl⟩
  | some u =>
      have hother (m : Nat) (hm : m ≠ n) :
          (v.exchange.watches.set n u.request.1)[m]? = v.exchange.watches[m]? :=
        List.getElem?_set_ne hm.symm
      dsimp only
      split
      · exact ⟨⟨⟨_, _, rfl⟩, rfl, hother, rfl, rfl⟩, rfl⟩
      · exact ⟨⟨⟨_, _, rfl⟩, rfl, hother, rfl, rfl⟩, rfl⟩

theorem go_stops (hsilent : Silent n w v) :
    (v.step (.go n)).shared = v.shared ∧ Unmoved n v (v.step (.go n)) ∧
      (v.step (.go n)).HasStopped n := by
  obtain ⟨phase, wanted, hwatch, hgo⟩ := go_of_silent hsilent
  rw [hgo]
  refine ⟨rfl, ⟨⟨_, _, rfl⟩, rfl, ?_, rfl, rfl⟩, ?_⟩
  · intro m hm
    exact List.getElem?_set_ne hm.symm
  · exact ⟨_, List.getElem?_set_self (lt_of_watch? hwatch), rfl⟩

/-! ## Closing returns at once -/

/-- The turns of a silent watch come to one step. -/
theorem run_of_silent (hsilent : Silent n w v) :
    v.exchange.run (.watch n) = (v.step (.go n)).exchange := by
  obtain ⟨phase, wanted, hwatch, hgo⟩ := go_of_silent hsilent
  have hturn (phase : Phase) : { w with phase, wanted }.turn v.exchange.shared =
      ({ w with phase := .stopped, wanted }, v.exchange.shared) := if_pos hsilent.cancelled
  have hfound : v.exchange.watches[n]? = some { w with phase, wanted } := hwatch
  rw [hgo]
  simp only [Exchange.run, hfound, Watch.run, hturn]
  rfl

/-- **An exchange that settles has a silent watch stop,** if that is due, and takes no time. -/
theorem settle_stops (h : v.Sound) (hrests : v.Rests) (hsilent : Silent n w v)
    (hdue : (v.shared.now, .watch n) ∈ v.shared.agenda.entries) :
    v.exchange.settle.now = v.exchange.now ∧
      ∃ w', v.exchange.settle.watches[n]? = some w' ∧ w'.phase = .stopped := by
  have hmem : Task.watch n ∈ dueTasks v.exchange :=
    List.mem_map.mpr ⟨_, Agenda.mem_due h.agenda hdue (Nat.le_refl _), rfl⟩
  obtain ⟨before, after, hsplit⟩ := List.append_of_mem hmem
  rw [settle_eq, hsplit, List.foldl_append, List.foldl_cons]
  -- the tasks before, the watch itself, and the tasks behind
  have hsound0 := sound_step h .retire
  obtain ⟨hsilent0, -, -⟩ := silent_step h hsilent .retire
  obtain ⟨_, ⟨first, hfirst, rfl⟩, hexchange1, hpoints1⟩ :=
    plays_tasks (v := v.step .retire) hrests before
  have hsound1 := sound_run hsound0 first
  obtain ⟨hsilent1, -, -⟩ := silent_run hsound0 hsilent0 first
  have hnow1 := now_turns hsound0 hfirst
  generalize run first (v.step .retire) = v1 at hexchange1 hpoints1 hsound1 hsilent1 hnow1
  have hrests1 : v1.Rests := fun m => (congrFun hpoints1 m).trans (hrests m)
  obtain ⟨-, hunmoved, hstopped⟩ := go_stops hsilent1
  obtain ⟨hsilent2, -, -⟩ := silent_step hsound1 hsilent1 (.go n)
  have hsound2 := sound_step hsound1 (.go n)
  have hrests2 : (v1.step (.go n)).Rests :=
    fun m => (congrFun hunmoved.points m).trans (hrests1 m)
  obtain ⟨_, ⟨second, hsecond, rfl⟩, hexchange2, -⟩ := plays_tasks hrests2 after
  obtain ⟨-, -, hstays⟩ := silent_run hsound2 hsilent2 second
  have hnow2 := now_turns hsound2 hsecond
  have hlast : after.foldl Exchange.run ((before.foldl Exchange.run
      (v.exchange.apply fun s => { s with agenda := s.agenda.later s.now })).run (.watch n)) =
        (run second (v1.step (.go n))).exchange := by
    rw [hexchange2, ← run_of_silent hsilent1, hexchange1]
    rfl
  rw [hlast]
  refine ⟨?_, hstays hstopped⟩
  exact hnow2.trans ((now_turn (.go n)).trans hnow1)

/-! ## Silence -/

/-- **Cancellation silences a watch.** Take a watch at any time, between two turns: not yet run,
parked, called or with a request kept, or waiting for a lookup. Once it is closed, or a token above
its own is cancelled, then whatever happens later

* it does no deed: it begins no lookup, stores nothing and publishes nothing, and its outbox holds
  what it held;
* when it goes on, it stops and leaves all that is shared as it is;
* another request or close changes nothing for anyone else: neither what is shared, but for what
  is due, nor what is cancelled.

When it goes on for the first time it has stopped, without a look at its lookup; and this is the
instant of the cancellation. -/
theorem cancelled_watch_silent (directory : Directory) (before : List Occurrence) {n : Nat}
    {w : Watch} (hwatch : (run before (start directory)).watch? n = some w)
    (hbetween : (run before (start directory)).points n = none) {stop : Occurrence}
    (hstop : Silences n w stop) (later : List Occurrence) :
    let v := run before (start directory)
    let v' := run later (v.step stop)
    (v'.journal.of n = v.journal.of n ∧ v'.shared.box w.box = v.shared.box w.box) ∧
    (Unmoved n v (v.step stop) ∧ Unmoved n v' (v'.step (.go n)) ∧
      (v'.step (.go n)).shared = v'.shared ∧ (v'.step (.go n)).HasStopped n) ∧
    (∀ o, o = .request n ∨ o = .close n → Unmoved n v' (v'.step o) ∧
      ∀ u : Token, w.token.lineage <:+ u.lineage ∨ (∀ mark ∈ w.token.lineage.head?,
        mark ∉ u.lineage) → (v'.step o).shared.isCancelled u = v'.shared.isCancelled u) ∧
    (v.shared.now, .watch n) ∈ (v.step stop).shared.agenda.entries ∧
    (v.Rests → (v.step stop).exchange.settle.now = v.exchange.now ∧
      ∃ w', (v.step stop).exchange.settle.watches[n]? = some w' ∧ w'.phase = .stopped) := by
  intro v v'
  have hsound : v.Sound := sound_run (sound_start directory) before
  have hsound1 := sound_step hsound stop
  obtain ⟨hsilent, hunmoved, hdue⟩ := silent_of_silences hsound hwatch hbetween hstop
  obtain ⟨hsilent', hjournal', -⟩ := silent_run hsound1 hsilent later
  have hsound' : v'.Sound := sound_run hsound1 later
  have hjournal : v'.journal.of n = v.journal.of n := by
    rw [← hunmoved.journal]
    exact hjournal'
  obtain ⟨hshared, hgo, hstopped⟩ := go_stops hsilent'
  obtain ⟨phase, wanted, hwatch'⟩ := hsilent'.watch
  refine ⟨⟨hjournal, ?_⟩, ⟨hunmoved, hgo, hshared, hstopped⟩, ?_, hdue, ?_⟩
  · have hthen := hsound'.published n _ hwatch'
    have hnow := hsound.published n w hwatch
    rw [Journal.publications, hjournal] at hthen
    exact congrArg Outbox.mk (hthen.trans hnow.symm)
  · rintro o (rfl | rfl)
    · obtain ⟨hrequest, htokens⟩ := unmoved_request v' n
      exact ⟨hrequest, fun u _ => by rw [Shared.isCancelled, htokens]; rfl⟩
    · rw [close_eq hwatch']
      obtain ⟨hclose, htokens⟩ := unmoved_cancel n v' w.token
      refine ⟨hclose, fun u hu => ?_⟩
      rw [Shared.isCancelled, htokens]
      exact v'.shared.tokens.isCancelled_cancel_again hsilent'.cancelled hu
  · intro hrests
    have hnow : (v.step stop).shared.now = v.shared.now := by
      obtain ⟨tokens, agenda, hsame⟩ := hunmoved.shared
      rw [hsame]
    have hrests1 : (v.step stop).Rests := fun m => (congrFun hunmoved.points m).trans (hrests m)
    rw [← hnow] at hdue
    obtain ⟨hsettled, hstops⟩ := settle_stops hsound1 hrests1 hsilent hdue
    exact ⟨hsettled.trans hnow, hstops⟩

/-- A lookup is abandoned at the instant of its answer. -/
theorem cancelled_watch_silent_answered :
    let v := run [.watch .usual ⟨"dns", none, "svc:80", "svc", "80"⟩, .go 0, .go 0, .go 0,
      .pass 1_000_000_000] (start ⟨[("svc", [⟨.ofSecs 1, .ips ["10.0.0.1"]⟩])]⟩)
    let v' := run [.go 0, .request 0, .go 0] (v.step (.close 0))
    v.journal.map (·.deed) = [.asks ⟨.ofSecs 1, .ips ["10.0.0.1"]⟩] ∧
      v'.journal.of 0 = v.journal.of 0 ∧ v'.shared.box 0 = v.shared.box 0 := by
  have hwatch : (run [.watch .usual ⟨"dns", none, "svc:80", "svc", "80"⟩, .go 0, .go 0, .go 0,
      .pass 1_000_000_000] (start ⟨[("svc", [⟨.ofSecs 1, .ips ["10.0.0.1"]⟩])]⟩)).watch? 0 =
      some ⟨0, ⟨"svc:80", "svc", "80", .standard, .ofSecs 5⟩, ⟨[0]⟩, 0,
        .looking ⟨.ips ["10.0.0.1"], some 1_000_000_000, some 5_000_000_000⟩, false⟩ := by
    decide +kernel
  exact ⟨by decide +kernel, (cancelled_watch_silent _ _ hwatch rfl .close _).1⟩

end Resolver.Chronicle

end Dialer
