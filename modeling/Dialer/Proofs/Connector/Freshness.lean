import Dialer.Proofs.Connector.Office
import Dialer.Proofs.Resolver.Background
import Dialer.Proofs.Resolver.Provenance
import Dialer.Proofs.Retry.Course

/-!
# How old the addresses of the cache may be

Entries of the cache do not age. What bounds their age is the janitor: as long as it runs and no
timer is passed by, the time is at most that of its next clear, and whatever is in the cache has
been stored since the last one, an interval before (`Swept`). That holds of any interleaving: a
lookup begun before a clear may be stored behind it, but then it is stored behind it; and at the
instant of a clear the cache may be read before the janitor goes on, but this is still no more than
an interval after the clear before.
-/

namespace Dialer

open Resolver Chronicle

theorem Clock.tick_whole {due : Nat} (h : 1_000_000 ∣ due) : tick due = due := by
  obtain ⟨ms, rfl⟩ := h
  have hsame := tick_ofMillis ms
  rwa [ofMillis, Nat.mul_comm] at hsame

/-- A janitor that goes on at the very instant of a clear is ready for the next one. -/
theorem Rhythm.catchUp_due {every : Duration} {due : Nat} (hpos : 0 < every.toNanos)
    (hwhole : 1_000_000 ∣ due) :
    catchUp ⟨every, due, hpos⟩ due = ⟨every, due + every.toNanos, hpos⟩ := by
  have htick := Clock.tick_whole hwhole
  have hnext : following due due every = due + every.toNanos := by
    unfold following Clock.after
    rw [if_neg (by omega)]
  have hlater := Clock.le_tick (due + every.toNanos)
  unfold catchUp
  rw [dif_pos (Nat.le_of_eq htick)]
  dsimp only
  rw [hnext]
  unfold catchUp
  rw [dif_neg]
  show ¬ Clock.tick (due + every.toNanos) ≤ due
  omega

namespace Office

variable {config : Config} {byAuthority : Bool} {every : Duration} {due : Nat}

/-- The marks of the first three tokens are not given out again, and not cancelled. -/
structure Reserved (v : Chronicle) : Prop where
  next : 3 ≤ v.shared.tokens.next
  cancelled : ∀ mark ∈ v.shared.tokens.cancelled, 3 ≤ mark
  watches : ∀ n w, v.watch? n = some w → ∃ mark ∈ w.token.lineage.head?, 3 ≤ mark

theorem reserved_step {v : Chronicle} (hsound : v.Sound) {o : Occurrence}
    (ho : Serves config byAuthority false o) (h : Reserved v) : Reserved (v.step o) := by
  have hnext := Nat.le_trans h.next (marks_step hsound o)
  have htakes := v.step_takes o hsound.within
  generalize v.step o = v' at htakes hnext ⊢
  cases htakes with
  | acts n w deeds l shared ho hwatch hfree hacts htold =>
      refine ⟨hnext, ?_, ?_⟩
      · rw [shared_carry, htold.tokens]
        exact h.cancelled
      · intro m w' hm
        rcases mem_set hm with ⟨rfl, rfl⟩ | ⟨-, hsame⟩
        · rw [hacts.keeps.2.2.1, (standing_keeps w _).2.2.1]
          exact h.watches m w hwatch
        · exact h.watches m w' hsame
  | alters n w phase wanted agenda hwatch hwithin hlooking hstopped hagenda =>
      refine ⟨hnext, h.cancelled, ?_⟩
      intro m w' hm
      rcases mem_set hm with ⟨rfl, rfl⟩ | ⟨-, hsame⟩
      · exact h.watches m w hwatch
      · exact h.watches m w' hsame
  | begins options target w agenda hbegins hassignment hnumber hbox htoken hphase hagenda =>
      refine ⟨hnext, h.cancelled, ?_⟩
      intro m w' hm
      rcases mem_append hm with hold | ⟨rfl, rfl⟩
      · exact h.watches m w' hold
      · exact ⟨_, htoken, h.next⟩
  | aside _ haside =>
      refine ⟨hnext, ?_, ?_⟩
      · intro mark hmark
        -- a mark is cancelled with a token of the connections, or with that of a watch
        rcases haside.uncancelled mark hmark with hold | ⟨t, ht, rfl | ⟨n, w, rfl, hwatch, rfl⟩⟩
        · exact h.cancelled mark hold
        · rcases ho with hstop | ⟨first, hfirst, hle⟩
          · cases hstop
          · obtain rfl := Option.some.inj (hfirst.symm.trans ht)
            exact hle
        · obtain ⟨first, hfirst, hle⟩ := h.watches n w hwatch
          obtain rfl := Option.some.inj (hfirst.symm.trans ht)
          exact hle
      · intro m w' hm
        rw [watch?, haside.watches] at hm
        exact h.watches m w' hm

theorem Reserved.free {v : Chronicle} (h : Reserved v) :
    v.shared.isCancelled ⟨[1, 0]⟩ = false := by
  have hone : 1 ∉ v.shared.tokens.cancelled := fun hmem => by
    have := h.cancelled 1 hmem
    omega
  have hzero : 0 ∉ v.shared.tokens.cancelled := fun hmem => by
    have := h.cancelled 0 hmem
    omega
  simp [Shared.isCancelled, Cancellations.isCancelled, hone, hzero]

/-- The first janitor runs, and its next clear is due at an instant that is not past and not more
than an interval away. -/
structure Ticks (every : Duration) (due : Nat) (v : Chronicle) : Prop where
  janitor : ∃ number hpos, v.exchange.janitors[0]? =
    some ⟨number, ⟨[1, 0]⟩, ⟨every, due, hpos⟩, true⟩
  whole : 1_000_000 ∣ due
  ahead : v.shared.now ≤ due
  near : due ≤ v.shared.now + every.toNanos

theorem clock_step {v : Chronicle} (hsound : v.Sound) {o : Occurrence} (ho : o.isTiming = false) :
    (v.step o).shared.now = v.shared.now ∧
      (v.step o).exchange.janitors = v.exchange.janitors := by
  have htakes := v.step_takes o hsound.within
  generalize v.step o = v' at htakes ⊢
  cases htakes with
  | acts n w deeds l shared ho hwatch hfree hacts htold => exact ⟨htold.now, rfl⟩
  | alters => exact ⟨rfl, rfl⟩
  | begins => exact ⟨rfl, rfl⟩
  | aside _ haside =>
      rcases haside.clock with htiming | hsame
      · rw [ho] at htiming
        cases htiming
      · exact hsame

/-- A janitor other than the first one does nothing to the first one's time. -/
theorem ticks_sweep_ne {v : Chronicle} {n : Nat} (hne : n ≠ 0) (h : Ticks every due v) :
    Ticks every due (v.step (.sweep n)) := by
  obtain ⟨⟨number, hpos, hjanitor⟩, hwhole, hahead, hnear⟩ := h
  have hnow : (v.step (.sweep n)).shared.now = v.shared.now := now_turn (.sweep n)
  refine ⟨⟨number, hpos, ?_⟩, hwhole, hnow ▸ hahead, hnow ▸ hnear⟩
  show (v.exchange.run (.janitor n)).janitors[0]? = _
  rcases run_janitor v.exchange n with ⟨-, hsame⟩ | ⟨j, -, hrun⟩
  · rw [hsame]
    exact hjanitor
  · rw [hrun]
    exact (List.getElem?_set_ne hne).trans hjanitor

/-- The first janitor clears the cache at the instant at which that is due, and not before. -/
theorem ticks_sweep {v : Chronicle} (hreserved : Reserved v) (hwhole : every.WholeMillis)
    (h : Ticks every due v) :
    Ticks every due (v.step (.sweep 0)) ∨
      (v.step (.sweep 0)).shared.cache = .empty ∧
        Ticks every (due + every.toNanos) (v.step (.sweep 0)) := by
  obtain ⟨⟨number, hpos, hjanitor⟩, hdue, hahead, hnear⟩ := h
  have hstep : v.step (.sweep 0) = { v with exchange := v.exchange.run (.janitor 0) } := rfl
  have hlength := (List.getElem?_eq_some_iff.mp hjanitor).1
  rcases run_janitor v.exchange 0 with ⟨hnone, -⟩ | ⟨j, hj, hrun⟩
  · rw [hnone] at hjanitor
    cases hjanitor
  · obtain rfl := Option.some.inj (hj.symm.trans hjanitor)
    rw [hstep, hrun]
    rcases janitor_run ⟨number, ⟨[1, 0]⟩, ⟨every, due, hpos⟩, true⟩ v.exchange.shared with
      ⟨hcancelled, -⟩ | ⟨-, -, hfires, hrun⟩ | ⟨-, -, hrun⟩
    · have hfree : v.exchange.shared.isCancelled ⟨[1, 0]⟩ = false := hreserved.free
      rw [hfree] at hcancelled
      cases hcancelled
    · -- it fires no later than now, and now is no later than it is due
      have hnow : v.exchange.shared.now = due := by
        have hbefore := Clock.le_tick due
        have hahead : v.exchange.shared.now ≤ due := hahead
        have hfires : Clock.tick due ≤ v.exchange.shared.now := hfires
        omega
      rw [hrun, hnow, Rhythm.catchUp_due hpos hdue]
      refine .inr ⟨rfl, ⟨number, hpos, List.getElem?_set_self hlength⟩, Nat.dvd_add hdue hwhole,
        ?_, ?_⟩
      · show v.exchange.shared.now ≤ due + every.toNanos
        omega
      · show due + every.toNanos ≤ v.exchange.shared.now + every.toNanos
        omega
    · rw [hrun]
      exact .inl ⟨⟨number, hpos, List.getElem?_set_self hlength⟩, hdue, hahead, hnear⟩

/-- **The janitor stays on time,** whatever happens: no timer is passed by. -/
theorem ticks_step {v : Chronicle} (hsound : v.Sound) (hreserved : Reserved v)
    (hwhole : every.WholeMillis) {o : Occurrence} (hjump : ∀ now, o ≠ .jump now)
    (h : Ticks every due v) :
    Ticks every due (v.step o) ∨
      o = .sweep 0 ∧ (v.step o).shared.cache = .empty ∧
        Ticks every (due + every.toNanos) (v.step o) := by
  cases htiming : o.isTiming with
  | false =>
      obtain ⟨hnow, hjanitors⟩ := clock_step hsound htiming
      obtain ⟨hjanitor, hdue, hahead, hnear⟩ := h
      exact .inl ⟨hjanitors ▸ hjanitor, hdue, hnow ▸ hahead, hnow ▸ hnear⟩
  | true =>
      cases o with
      | sweep n =>
          by_cases hfirst : n = 0
          · subst hfirst
            rcases ticks_sweep hreserved hwhole h with hwaits | ⟨hcache, hcleared⟩
            · exact .inl hwaits
            · exact .inr ⟨rfl, hcache, hcleared⟩
          · exact .inl (ticks_sweep_ne hfirst h)
      | janitor other token =>
          obtain ⟨⟨number, hpos, hjanitor⟩, hdue, hahead, hnear⟩ := h
          have hlength := (List.getElem?_eq_some_iff.mp hjanitor).1
          have hstep : v.step (.janitor other token) =
              { v with exchange := (v.exchange.janitor? other token).getD v.exchange } := rfl
          rw [hstep]
          unfold Exchange.janitor?
          cases Rhythm.start? other v.exchange.now with
          | none => exact .inl ⟨⟨number, hpos, hjanitor⟩, hdue, hahead, hnear⟩
          | some rhythm =>
              exact .inl ⟨⟨number, hpos, (List.getElem?_append_left hlength).trans hjanitor⟩, hdue,
                hahead, hnear⟩
      | pass now =>
          refine .inl ?_
          simp only [Chronicle.step]
          split
          · rename_i hguard
            obtain ⟨hforward, htimers⟩ := hguard
            obtain ⟨⟨number, hpos, hjanitor⟩, hdue, hahead, hnear⟩ := h
            -- the clear that is due is among the timers, and these are not passed by
            have htimer : Clock.tick due ∈ v.timers :=
              List.mem_append_left _ (List.mem_map.mpr ⟨_,
                List.mem_filter.mpr ⟨List.mem_of_getElem? hjanitor, rfl⟩, rfl⟩)
            have hnotPast := htimers _ htimer
            rw [Clock.tick_whole hdue] at hnotPast
            refine ⟨⟨number, hpos, hjanitor⟩, hdue, hnotPast, ?_⟩
            exact Nat.le_trans hnear (Nat.add_le_add_right hforward _)
          · exact h
      | jump now => exact absurd rfl (hjump now)
      | _ => cases htiming

/-! ## What is served -/

/-- What is served was stored no longer than an interval ago. -/
def Fresh (every : Duration) : Journal → Prop
  | [] => True
  | e :: earlier =>
    (∀ addresses, e.deed = .serves addresses →
      ∃ store, Journal.storeOf? e.assignment.key earlier = some store ∧
        store.deed = .stores addresses ∧ e.time ≤ store.time + every.toNanos) ∧ Fresh every earlier

theorem fresh_append {journal : Journal} (n : Nat) (a : Assignment) (now : Nat)
    {deeds : List Deed} (hdeeds : ∀ addresses, .serves addresses ∉ deeds)
    (h : Fresh every journal) : Fresh every (deeds.map (⟨n, a, now, ·⟩) ++ journal) := by
  induction deeds with
  | nil => exact h
  | cons deed deeds ih =>
      refine ⟨?_, ih fun addresses hmem => hdeeds addresses (List.mem_cons_of_mem _ hmem)⟩
      rintro addresses rfl
      exact absurd List.mem_cons_self (hdeeds addresses)

/-- The time is no later than the next clear, and the cache has been filled since the last. -/
structure Swept (every : Duration) (due : Nat) (v : Chronicle) : Prop where
  reserved : Reserved v
  ticks : Ticks every due v
  traced : Traced (fun e => due ≤ e.time + every.toNanos) v
  fresh : Fresh every v.journal

theorem fresh_step {v : Chronicle} (hsound : v.Sound) (h : Swept every due v) (o : Occurrence) :
    Fresh every (v.step o).journal := by
  have htakes := v.step_takes o hsound.within
  generalize v.step o = v' at htakes ⊢
  cases htakes with
  | acts n w deeds l shared ho hwatch hfree hacts htold =>
      obtain ⟨-, hassignment, -, -⟩ := standing_keeps w (v.points n)
      show Fresh every (deeds.map (⟨n, w.assignment, v.shared.now, ·⟩) ++ v.journal)
      cases hacts with
      | serves hpoint a rest hcache =>
          refine ⟨?_, h.fresh⟩
          rintro addresses hdeed
          obtain rfl := Deed.serves.inj hdeed
          rw [hassignment] at hcache
          -- the next clear lies between now and an interval after the addresses were stored
          obtain ⟨store, hstored, hstores, hsince⟩ := h.traced.cached _ _ hcache
          exact ⟨store, hstored, hstores, Nat.le_trans h.ticks.ahead hsince⟩
      | _ => exact fresh_append n w.assignment v.shared.now (by simp) h.fresh
  | alters => exact h.fresh
  | begins => exact h.fresh
  | aside _ haside =>
      rw [haside.journal]
      exact h.fresh

theorem swept_step {v : Chronicle} (hsound : v.Sound) (hwhole : every.WholeMillis)
    {o : Occurrence} (ho : Serves config byAuthority false o) (h : Swept every due v) :
    ∃ due', Swept every due' (v.step o) := by
  have hreserved := reserved_step hsound ho h.reserved
  have hfresh := fresh_step hsound h o
  have htraced := traced_step hsound h.traced (o := o) (by rintro key addresses rfl; exact ho)
    fun _ _ _ => h.ticks.near
  have hjump : ∀ now, o ≠ .jump now := by
    rintro now rfl
    cases ho
  rcases ticks_step hsound h.reserved hwhole hjump h.ticks with hticks | ⟨-, hempty, hticks⟩
  · exact ⟨due, hreserved, hticks, htraced, hfresh⟩
  · -- nothing is left in the cache that could be too old for the clear after this one
    refine ⟨_, hreserved, hticks, ⟨htraced.coherent, ?_, htraced.owed⟩, hfresh⟩
    rw [hempty]
    exact Journal.backs_empty _ _

theorem swept_start (config : Config) (directory : Directory) (byAuthority : Bool)
    (draw : Nat → Float) (hinterval : 0 < config.resolver.cacheClearInterval.toNanos) :
    Swept config.resolver.cacheClearInterval config.resolver.cacheClearInterval.toNanos
      (start config directory byAuthority draw).chronicle := by
  let minted : Exchange :=
    { shared := { Shared.start directory with tokens := ⟨3, []⟩ }, watches := [], janitors := [] }
  have hrhythm := Config.start?_interval hinterval
  have hexchange : (start config directory byAuthority draw).chronicle.exchange =
      (minted.janitor? config.resolver.cacheClearInterval ⟨[1, 0]⟩).getD minted := rfl
  have hjournal : (start config directory byAuthority draw).chronicle.journal = [] := rfl
  generalize (start config directory byAuthority draw).chronicle = v at hexchange hjournal ⊢
  unfold Exchange.janitor? at hexchange
  have hnow : minted.now = 0 := rfl
  rw [hnow, hrhythm] at hexchange
  obtain ⟨exchange, points, journal⟩ := v
  obtain rfl : exchange = _ := hexchange
  obtain rfl : journal = [] := hjournal
  refine ⟨⟨Nat.le_refl 3, ?_, ?_⟩, ?_, ⟨trivial, Journal.backs_empty _ _, ?_⟩, trivial⟩
  · exact fun mark hmark => absurd hmark List.not_mem_nil
  · intro n w hwatch
    cases hwatch
  · refine ⟨⟨0, hinterval, ?_⟩, Duration.whole_ofMillis64 _, Nat.zero_le _, ?_⟩
    · rfl
    · exact Nat.le_of_eq (Nat.zero_add _).symm
  · intro n w hwatch
    cases hwatch

theorem swept_run (config : Config) (directory : Directory) (byAuthority : Bool)
    (draw : Nat → Float) (hinterval : 0 < config.resolver.cacheClearInterval.toNanos)
    {errands : List Errand} (hundisturbed : ∀ e ∈ errands, e.disturbs = false) :
    (run errands (start config directory byAuthority draw)).Sound config byAuthority ∧
      ∃ due, Swept config.resolver.cacheClearInterval due
        (run errands (start config directory byAuthority draw)).chronicle := by
  have hstart := sound_start config directory byAuthority draw
  obtain ⟨hsound, occurrences, hserves, hrun⟩ := errands_reach false hstart errands <| by
    intro e he hdisturbs
    rw [hundisturbed e he] at hdisturbs
    cases hdisturbs
  refine ⟨hsound, ?_⟩
  rw [← hrun]
  refine run_keeps (P := fun v => ∃ due, Swept config.resolver.cacheClearInterval due v)
    (Serves config byAuthority false) ?_ hstart.chronicle hserves
    ⟨_, swept_start config directory byAuthority draw hinterval⟩
  rintro v o hv ho ⟨due, hswept⟩
  exact swept_step hv (Duration.whole_ofMillis64 _) ho hswept

theorem Fresh.served {journal later earlier : Journal} {e : Entry} (h : Fresh every journal)
    (hsplit : journal = later ++ e :: earlier) {addresses : List Address}
    (hserves : e.deed = .serves addresses) :
    ∃ store, earlier.storeOf? e.assignment.key = some store ∧ store.deed = .stores addresses ∧
      e.time ≤ store.time + every.toNanos := by
  subst hsplit
  induction later with
  | nil => exact h.1 addresses hserves
  | cons _ later ih => exact ih h.2

/-- **Addresses are no older than an interval.** As long as a connector is not stopped, and the
clock passes no timer by, whatever else is done and however it interleaves: a cycle that is served
from the cache publishes what was stored last under its endpoint, and this was stored no longer than
an interval before it was served. All that is in the cache has been stored within an interval. -/
theorem served_fresh (config : Config) (directory : Directory) (byAuthority : Bool)
    (draw : Nat → Float) (hinterval : 0 < config.resolver.cacheClearInterval.toNanos)
    (errands : List Errand) (hundisturbed : ∀ e ∈ errands, e.disturbs = false) :
    let o := run errands (start config directory byAuthority draw)
    (∀ (n : Nat) (w : Watch), o.connector.exchange.watches[n]? = some w →
      (o.shared.box w.box).published = o.journal.publications n) ∧
    (∀ (later : Journal) (hit : Entry) (earlier : Journal) (addresses : List Address),
      o.journal = later ++ hit :: earlier → hit.deed = .serves addresses →
      ∃ store, earlier.storeOf? hit.assignment.key = some store ∧
        store.deed = .stores addresses ∧
        hit.time ≤ store.time + config.resolver.cacheClearInterval.toNanos) ∧
    (∀ (later : Journal) (e : Entry) (earlier : Journal) (served addresses : List Address),
      o.journal = later ++ e :: earlier → earlier.last? e.number = some (.serves served) →
      e.deed = .publishes addresses → addresses = served) ∧
    ∀ endpoint addresses, o.shared.cache.get? endpoint = some addresses →
      ∃ store, o.journal.storeOf? endpoint = some store ∧ store.deed = .stores addresses ∧
        o.shared.now ≤ store.time + config.resolver.cacheClearInterval.toNanos := by
  intro o
  obtain ⟨hsound, due, hswept⟩ := swept_run config directory byAuthority draw hinterval hundisturbed
  refine ⟨hsound.chronicle.published, ?_, ?_, ?_⟩
  · intro later hit earlier addresses hsplit hserves
    exact hswept.fresh.served hsplit hserves
  · intro later e earlier served addresses hsplit hlast hpublishes
    have hcoherent := hswept.traced.coherent
    rw [show o.chronicle.journal = _ from hsplit] at hcoherent
    obtain ⟨hfollows, -⟩ := hcoherent.earlier
    rw [hlast, hpublishes] at hfollows
    cases hfollows with
    | publishesServed _ hsame => exact (Deed.serves.inj (Option.some.inj hsame)).symm
    | publishesStored _ hstores => cases hstores
    | publishesNothing hfails => cases hfails
  · intro endpoint addresses hcached
    obtain ⟨store, hstored, hstores, hsince⟩ := hswept.traced.cached endpoint addresses hcached
    exact ⟨store, hstored, hstores, Nat.le_trans hswept.ticks.ahead hsince⟩

/-- At the very instant of a clear, before the janitor goes on, a second connection is served what
was stored an interval ago. -/
theorem served_fresh_due :
    let o := run ([.connect "a" "svc:80"] ++ List.replicate 5 (.background (.go 0)) ++
      [.background (.pass 30_000_000_000), .connect "b" "svc:80"] ++
        List.replicate 3 (.background (.go 1)))
      (start .standard ⟨[("svc", [⟨.zero, .ips ["1.1.1.1"]⟩])]⟩ false fun _ => 0.0)
    (o.shared.box 1).published = [⟨30_000_000_000, [⟨"1.1.1.1:80"⟩]⟩] ∧
      ∃ store ∈ o.journal, store.time = 0 ∧ store.deed = .stores [⟨"1.1.1.1:80"⟩] ∧
        30_000_000_000 ≤ store.time + Config.standard.resolver.cacheClearInterval.toNanos := by
  intro o
  let a : Assignment := ⟨"svc:80", "svc", "80", .standard, .ofSecs 5⟩
  have hsplit : o.journal = [⟨1, a, 30_000_000_000, .publishes [⟨"1.1.1.1:80"⟩]⟩] ++
      ⟨1, a, 30_000_000_000, .serves [⟨"1.1.1.1:80"⟩]⟩ :: o.journal.drop 2 := by
    decide +kernel
  have hstored : Journal.storeOf? "svc:80" (o.journal.drop 2) =
      some ⟨0, a, 0, .stores [⟨"1.1.1.1:80"⟩]⟩ := by
    decide +kernel
  refine ⟨by decide +kernel, ?_⟩
  obtain ⟨store, hstore, hstores, hfresh⟩ := (served_fresh .standard _ false _ (by decide +kernel) _
    (by decide +kernel)).2.1 _ _ _ _ hsplit rfl
  obtain rfl := Option.some.inj (hstored.symm.trans hstore)
  exact ⟨_, by decide +kernel, rfl, hstores, hfresh⟩

end Office

end Dialer
