import Dialer.Proofs.Breaker.Outcomes
import Dialer.Proofs.Breaker.OpenPeriod
import Dialer.Proofs.Call.Switchboard

/-!
# The log is in order

An act at the breaker lets a call pass (`Traffic.Boards`), tells how one ended (`Traffic.Settles`),
or leaves the record of calls alone (`Traffic.Stays`). The log follows with a ticket, a report, or
nothing, and so it stays in order (`Logbook.InOrder`): there is a ticket for each pass, the reports
are what the breaker was told, and each of them is fair.

What a session does spares the others (`Logbook.Spares`): their tickets, their attempts in flight
and the reports there are.
-/

namespace Dialer

namespace Traffic

open Breaker

variable {t t' : Traffic} {cb : BreakerCallbacks} {now : Nat}

/-! ## Acts and the record -/

/-- No call has passed or ended. -/
structure Stays (t t' : Traffic) : Prop where
  passes : t'.passes = t.passes
  afloat : t'.afloat = t.afloat
  settled : t'.settled = t.settled
  lost : t'.lost = t.lost

/-- A call has passed. -/
structure Boards (t : Traffic) (p : Pass) (t' : Traffic) : Prop where
  passes : t'.passes = p :: t.passes
  afloat : t'.afloat = p :: t.afloat
  settled : t'.settled = t.settled
  lost : t'.lost = t.lost

/-- The breaker was told how a call ended. -/
structure Settles (t : Traffic) (p : Pass) (success : Bool) (t' : Traffic) : Prop where
  passes : t'.passes = t.passes
  afloat : t'.afloat = t.afloat.erase p
  settled : ∃ era, t'.settled = ⟨p, success, era⟩ :: t.settled
  lost : t'.lost = t.lost

theorem step_enter_breaker (t : Traffic) (cb : BreakerCallbacks) (now : Nat) :
    (t.step ⟨now, cb, .enter⟩).breaker = (t.breaker.ask now).breaker := by
  obtain ⟨hdesk, _⟩ := step_of_enter (t := t) (e := ⟨now, cb, .enter⟩) rfl
  show (t.step ⟨now, cb, .enter⟩).desk.breaker = _
  rw [hdesk, Desk.enter_breaker]

theorem step_observe_breaker (t : Traffic) (cb : BreakerCallbacks) (now : Nat) :
    (t.step ⟨now, cb, .observe⟩).breaker = (t.breaker.refresh now).1 := by
  rw [step_of_observe rfl]
  exact Desk.observe_breaker cb t.desk now

theorem stays_of_observe (t : Traffic) (cb : BreakerCallbacks) (now : Nat) :
    Stays t (t.step ⟨now, cb, .observe⟩) := by
  rw [step_of_observe rfl]
  exact ⟨rfl, rfl, rfl, rfl⟩

theorem stays_of_rejected {error : CallError} (hentry : (t.desk.enter cb now).2 = .rejected error) :
    Stays t (t.step ⟨now, cb, .enter⟩) := by
  unfold step
  dsimp only
  rcases hdesk : t.desk.enter cb now with ⟨d, entry⟩
  rw [hdesk] at hentry
  rw [show entry = .rejected error from hentry]
  exact ⟨rfl, rfl, rfl, rfl⟩

theorem boards_of_passed {generation : UInt64}
    (hentry : (t.desk.enter cb now).2 = .passed generation) :
    Boards t ((t.turn now).nextPass now generation) (t.step ⟨now, cb, .enter⟩) := by
  unfold step
  dsimp only
  rcases hdesk : t.desk.enter cb now with ⟨d, entry⟩
  rw [hdesk] at hentry
  rw [show entry = .passed generation from hentry]
  exact ⟨rfl, rfl, rfl, rfl⟩

theorem settles_of_tells (horderly : Orderly t) {p : Pass} (hp : p ∈ t.afloat) {e : Event}
    {success : Bool} (htells : e.Tells p.number success) :
    Settles t p success (t.step e) ∧ (t.step e).breaker =
      (t.breaker.record e.now p.generation success e.callbacks.trips).breaker := by
  rw [step_of_tells horderly hp htells]
  refine ⟨⟨rfl, rfl, ⟨_, rfl⟩, rfl⟩, ?_⟩
  exact Desk.record_breaker _ _ _ _ _

theorem Orderly.afloat_nodup (h : Orderly t) : t.afloat.Nodup := by
  have hpasses := h.conserved.nodup_iff.mp (List.Nodup.of_map _ h.number_nodup)
  exact (List.nodup_append.mp (List.nodup_append.mp hpasses).1).2.1

end Traffic

/-! ## Tickets and reports -/

/-- The attempt that a ticket is for, under a call timeout. -/
def Ticket.attempt (k : Ticket) (limit : Duration) : Attempt :=
  ⟨k.pass.generation, k.behaviour.outcome, k.behaviour.endsAt k.pass.since,
    Timeout.deadline? limit k.pass.since⟩

/-- How the breaker may be told of an attempt: as it ended, if that was no later than the timer of
the call timeout fires; that it has timed out, at that very instant; or that it was dropped. The
timer is the one that was set when the attempt passed. -/
inductive Report.Fair (limit : Duration) (r : Report) : Prop
  | own (hends : r.ticket.behaviour.endsAt r.ticket.pass.since = some r.time)
      (hlimit : limit.isZero = true ∨ r.time ≤ Clock.timer r.ticket.pass.since limit)
      (houtcome : r.outcome = some r.ticket.behaviour.outcome)
      (hsuccess : r.success = r.ticket.behaviour.outcome.succeeds)
  | timedOut (hlimit : limit.isZero = false)
      (htime : r.time = Clock.timer r.ticket.pass.since limit)
      (hlate : ∀ t, r.ticket.behaviour.endsAt r.ticket.pass.since = some t → r.time < t)
      (houtcome : r.outcome = some (.returns (.error (.timeout limit))))
      (hsuccess : r.success = false)
  | dropped (houtcome : r.outcome = none) (hsuccess : r.success = false)

namespace Logbook

variable {b b' : Logbook} {l : Line} {n : Nat} {limit : Duration}

/-- The log goes with the traffic: a ticket for each pass, a report for each outcome. -/
structure InOrder (limit : Duration) (b : Logbook) : Prop where
  orderly : b.traffic.Orderly
  lost : b.traffic.lost = []
  passes : b.traffic.passes = b.tickets.map (·.pass)
  settled : b.traffic.settled.map (fun r => (r.pass, r.success)) =
    b.reports.map (fun r => (r.ticket.pass, r.success))
  reported : ∀ r ∈ b.reports, r.ticket ∈ b.tickets
  fair : ∀ r ∈ b.reports, r.Fair limit

theorem InOrder.eq_of_pass (h : b.InOrder limit) {k k' : Ticket} (hk : k ∈ b.tickets)
    (hk' : k' ∈ b.tickets) (hpass : k.pass = k'.pass) : k = k' := by
  have hnodup := List.Nodup.of_map _ h.orderly.number_nodup
  rw [h.passes] at hnodup
  exact List.inj_on_of_nodup_map hnodup hk hk' hpass

theorem InOrder.orderly_act (h : b.InOrder limit) (l : Line) (act : Act) :
    (b.act l act).traffic.Orderly :=
  Traffic.orderly_kept.step b.traffic ⟨l.now, l.callbacks, act⟩ h.orderly

theorem mem_of_ticketsOf {k : Ticket} (h : k ∈ b.ticketsOf n) : k ∈ b.tickets ∧ k.session = n := by
  simpa [ticketsOf] using h

theorem ticketsOf_boards (b : Logbook) (l : Line) (n : Nat) (generation : UInt64)
    (invocation : Nat) (behaviour : Behaviour) :
    (b.enact l n (.boards generation invocation behaviour)).ticketsOf n =
      ⟨n, invocation, behaviour, (b.traffic.turn l.now).nextPass l.now generation⟩ ::
        b.ticketsOf n :=
  List.filter_cons_of_pos (by simp)

theorem enact_tells {k : Ticket} {rest : List Ticket} (h : b.ticketsOf n = k :: rest) (l : Line)
    (outcome : Outcome) :
    b.enact l n (.tells outcome) = { b.act l (.leave k.pass.number outcome) with
      reports := ⟨k, some outcome, l.now⟩ :: b.reports } := by
  unfold enact
  rw [h]

theorem enact_drops {k : Ticket} {rest : List Ticket} (h : b.ticketsOf n = k :: rest) (l : Line) :
    b.enact l n .drops = { b.act l (.drop k.pass.number) with
      reports := ⟨k, none, l.now⟩ :: b.reports } := by
  unfold enact
  rw [h]

/-- What a deed of one session leaves as it is for the others. -/
structure Spares (n : Nat) (b b' : Logbook) : Prop where
  ticketsOf : ∀ m, m ≠ n → b'.ticketsOf m = b.ticketsOf m
  afloat : ∀ k ∈ b.tickets, k.session ≠ n → k.pass ∈ b.traffic.afloat →
    k.pass ∈ b'.traffic.afloat
  reports : ∀ r ∈ b.reports, r ∈ b'.reports

theorem InOrder.stays (h : b.InOrder limit) {act : Act}
    (hstays : b.traffic.Stays (b.act l act).traffic) : (b.act l act).InOrder limit where
  orderly := h.orderly_act l act
  lost := hstays.lost.trans h.lost
  passes := hstays.passes.trans h.passes
  settled := by rw [hstays.settled]; exact h.settled
  reported := h.reported
  fair := h.fair

theorem InOrder.boards (h : b.InOrder limit) {generation : UInt64} (invocation : Nat)
    (behaviour : Behaviour)
    (hboards : b.traffic.Boards ((b.traffic.turn l.now).nextPass l.now generation)
      (b.act l .enter).traffic) :
    (b.enact l n (.boards generation invocation behaviour)).InOrder limit where
  orderly := h.orderly_act l .enter
  lost := hboards.lost.trans h.lost
  passes := by
    show (b.act l .enter).traffic.passes = _
    rw [hboards.passes, h.passes]
    rfl
  settled := by
    show (b.act l .enter).traffic.settled.map _ = _
    rw [hboards.settled]
    exact h.settled
  reported r hr := List.mem_cons_of_mem _ (h.reported r hr)
  fair := h.fair

theorem InOrder.settles (h : b.InOrder limit) {act : Act} {r : Report} (hr : r.ticket ∈ b.tickets)
    (hsettles : b.traffic.Settles r.ticket.pass r.success (b.act l act).traffic)
    (hfair : r.Fair limit) :
    { b.act l act with reports := r :: b.reports : Logbook }.InOrder limit where
  orderly := h.orderly_act l act
  lost := hsettles.lost.trans h.lost
  passes := hsettles.passes.trans h.passes
  settled := by
    obtain ⟨era, hsettled⟩ := hsettles.settled
    show (b.act l act).traffic.settled.map _ = _
    rw [hsettled, List.map_cons, List.map_cons, h.settled]
  reported := List.forall_mem_cons.mpr ⟨hr, h.reported⟩
  fair := List.forall_mem_cons.mpr ⟨hfair, h.fair⟩

theorem spares_of_stays {act : Act} (hstays : b.traffic.Stays (b.act l act).traffic) :
    Spares n b (b.act l act) where
  ticketsOf _ _ := rfl
  afloat _ _ _ hp := hstays.afloat ▸ hp
  reports _ hr := hr

theorem spares_boards {generation : UInt64} {invocation : Nat} {behaviour : Behaviour}
    (hboards : b.traffic.Boards ((b.traffic.turn l.now).nextPass l.now generation)
      (b.act l .enter).traffic) :
    Spares n b (b.enact l n (.boards generation invocation behaviour)) where
  ticketsOf m hm := List.filter_cons_of_neg (by simpa using hm.symm)
  afloat k _ _ hp := by
    show k.pass ∈ (b.act l .enter).traffic.afloat
    rw [hboards.afloat]
    exact List.mem_cons_of_mem _ hp
  reports _ hr := hr

/-- An attempt that ends takes no other with it. -/
theorem InOrder.spares_settles (h : b.InOrder limit) {act : Act} {r : Report}
    (hticket : r.ticket ∈ b.ticketsOf n)
    (hsettles : b.traffic.Settles r.ticket.pass r.success (b.act l act).traffic) :
    Spares n b { b.act l act with reports := r :: b.reports } where
  ticketsOf _ _ := rfl
  afloat k hk hother hp := by
    obtain ⟨hmem, hown⟩ := mem_of_ticketsOf hticket
    show k.pass ∈ (b.act l act).traffic.afloat
    rw [hsettles.afloat]
    refine (List.mem_erase_of_ne fun hpass => hother ?_).mpr hp
    rw [h.eq_of_pass hk hmem hpass, hown]
  reports _ hr := List.mem_cons_of_mem _ hr

end Logbook

end Dialer
