import Dialer.Proofs.Call.Soundness

/-!
# Protected calls

What a call does goes through three layers: the retries of its session, the breaker that all
sessions of a connection share, and the call timeout of each attempt. Cancelling the connection or
dropping a session can end an attempt at any moment.

Whatever happens to a switchboard leaves it sound (`Sound.step`): a step of a session because it is
made of moves (`Sound.went`), and everything else because it tells the breaker of no attempt but
the one that is dropped. From this, by induction over what happens, every run is sound
(`sound_run`), and the theorem about protected calls reads off what soundness says.
-/

namespace Dialer

theorem Call.Moves.keeps {l l' : Line} {c c' : Call} {deeds : List Call.Deed}
    (h : Moves l c deeds l' c') : l.Keeps l' := by
  cases h with
  | rests => exact .refl l
  | resumes => exact .refl l
  | stops => exact .refl l
  | refused => exact l.enter_keeps
  | boards => exact l.enter_keeps
  | @tells number work outcome _ _ => exact (Call.conclude_behind c l number work outcome).2.1
  | drops => exact l.abandon_keeps _

namespace Switchboard

variable {limit : UInt64} {base max : Duration} {s : Switchboard} {n : Nat} {c c' : Call}

/-! ## One happening -/

theorem Sound.moves (h : s.Sound limit base max) {l : Line} {deeds : List Call.Deed}
    (hn : s.sessions[n]? = some ⟨c, false⟩) (hmoves : Call.Moves s.line c deeds l c') :
    Sound limit base max
      ⟨l, s.sessions.set n ⟨c', false⟩, deeds.foldl (·.enact s.line n ·) s.log⟩ := by
  have hown := h.sessions n _ hn
  cases hmoves with
  | rests => exact h.aside hn hown (fun _ hruns => hruns) (fun hcut => hcut)
  | resumes hphase => exact h.resumes hn hphase
  | stops made hphase => exact h.stops hn hphase made
  | refused hphase henter => exact h.refused hn hphase henter
  | boards hphase henter => exact h.boards hn hphase henter
  | tells hphase hends => exact h.tells hn hphase hends
  | drops hphase =>
      exact h.drops hn hphase (.inr rfl) fun _ htickets _ => hown.over htickets rfl rfl rfl

theorem Sound.went {l l' : Line} {deeds : List Call.Deed} (hwent : Call.Went l c deeds l' c') :
    ∀ {s : Switchboard}, s.Sound limit base max → s.line = l →
      s.sessions[n]? = some ⟨c, false⟩ →
        Sound limit base max
          ⟨l', s.sessions.set n ⟨c', false⟩, deeds.foldl (·.enact l n ·) s.log⟩ := by
  induction hwent with
  | here l c =>
      intro s h hline hn
      subst hline
      exact h.moves hn .rests
  | @move l l' l'' c c' c'' now later hmoves _ ih =>
      intro s h hline hn
      subst hline
      have hlt : n < s.sessions.length := (List.getElem?_eq_some_iff.mp hn).1
      have hafter := ih (h.moves hn hmoves) rfl (List.getElem?_set_self hlt)
      -- what the log takes down depends on the line only by what every move keeps
      have hsame : (fun b deed => Logbook.enact l' n b deed) = (·.enact s.line n ·) := by
        funext b deed
        exact Logbook.enact_congr hmoves.keeps n b deed
      rw [List.foldl_append, ← List.set_set ⟨c', false⟩]
      simpa only [hsame] using hafter

theorem Sound.go (h : s.Sound limit base max) (n : Nat) : (s.go n).Sound limit base max := by
  unfold Switchboard.go
  split
  · rename_i c hn
    exact Sound.went (c.step_went s.line h.terms.usual) h rfl hn
  · exact h

theorem Sound.drop (h : s.Sound limit base max) (n : Nat) : (s.drop n).Sound limit base max := by
  unfold Switchboard.drop
  split
  · rename_i c hn
    have hown := h.sessions n _ hn
    split
    · rename_i number work hphase
      simp only [Call.abandon, hphase]
      exact h.drops hn hphase (.inl rfl) fun _ => hown.dropped
    · rename_i hphase
      have hline : c.abandon s.line = s.line := by
        unfold Call.abandon
        split
        · exact absurd ‹_› (hphase _ _)
        · rfl
      simp only [hline]
      refine h.aside hn (hown.dropped rfl fun _ hr => hr) (fun p hruns => ?_) fun _ => .inl rfl
      exact absurd hruns (Session.not_runs hphase)
  · exact h

theorem Sound.place (h : s.Sound limit base max) (operation : Operation) :
    (s.step (.place operation)).Sound limit base max := by
  have hkept {n : Nat} {session : Session} (hn : s.sessions[n]? = some session) :
      (s.step (.place operation)).sessions[n]? = some session := by
    have hlt : n < s.sessions.length := (List.getElem?_eq_some_iff.mp hn).1
    exact (List.getElem?_append_left hlt).trans hn
  -- no ticket has the number of a session that is not there yet
  have hnone : s.log.ticketsOf s.sessions.length = [] := by
    refine List.filter_eq_nil_iff.mpr fun k hk => ?_
    have hlt := h.numbered k hk
    simp only [decide_eq_true_eq]
    omega
  refine ⟨h.terms, h.breaker, h.log, ?_, ?_, ?_, ?_⟩
  · intro k hk
    show k.session < (s.sessions ++ [_]).length
    rw [List.length_append]
    exact Nat.lt_add_right _ (h.numbered k hk)
  · intro n session hn
    obtain hn | ⟨rfl, rfl⟩ := session_placed hn
    · exact h.sessions n session hn
    · exact Session.sound_start hnone operation h.terms.base h.terms.max
  · intro p hp
    obtain ⟨n, session, hn, hruns⟩ := h.afloat p hp
    exact ⟨n, session, hkept hn, hruns⟩
  · intro r hr hdropped
    obtain ⟨session, hn, hcut⟩ := h.cutShort r hr hdropped
    exact ⟨session, hkept hn, hcut⟩

/-- What happens to the exchange is nothing to the calls, if it does not come too late. -/
theorem Sound.share (h : s.Sound limit base max) (x : Resolver.Exchange) {now : Nat}
    (hprompt : ∀ (n : Nat) (c : Call), s.sessions[n]? = some ⟨c, false⟩ →
      ∀ number work, c.phase = .running number work → ∀ t ∈ work.wakes, now ≤ t) :
    (s.share x now).Sound limit base max := by
  have hterms := h.terms
  refine ⟨⟨hterms.usual, hterms.callTimeout, hterms.jitterRatio, hterms.base, hterms.max⟩,
    h.breaker, h.log, h.numbered, ?_, h.afloat, h.cutShort⟩
  intro n session hn
  have hown := h.sessions n session hn
  refine ⟨hown.begun, hown.behaviour, hown.counted, hown.paced, ?_, hown.pausing⟩
  intro hopen number work hphase
  obtain ⟨k, rest, htickets, hafloat, hwork, _⟩ := hown.running hopen number work hphase
  obtain ⟨c, dropped⟩ := session
  obtain rfl : dropped = false := hopen
  exact ⟨k, rest, htickets, hafloat, hwork, hprompt n c hn number work hphase⟩

theorem Sound.elapse (h : s.Sound limit base max) (now : Nat) :
    (s.step (.elapse now)).Sound limit base max := by
  unfold Switchboard.step
  dsimp only
  split
  · rename_i hguard
    refine h.share _ fun n c hn number work hphase t ht => hguard.2 t ?_
    refine List.mem_flatMap.mpr ⟨_, List.mem_of_getElem? hn, ?_⟩
    simp only [Session.wakes, Call.wakes, hphase, Bool.false_eq_true, if_false]
    exact ht
  · exact h

theorem Sound.elsewhere (h : s.Sound limit base max) (x : Resolver.Exchange) :
    (s.step (.elsewhere x)).Sound limit base max := by
  refine h.share x fun n c hn number work hphase => ?_
  obtain ⟨_, _, _, _, _, hprompt⟩ := (h.sessions n _ hn).running rfl number work hphase
  exact hprompt

theorem Sound.observe (h : s.Sound limit base max) :
    (s.step .observe).Sound limit base max := by
  have hkeeps := s.line.observe_keeps
  have hstays : s.log.traffic.Stays (s.log.act s.line .observe).traffic :=
    Traffic.stays_of_observe _ _ _
  have hbreaker : (s.log.act s.line .observe).traffic.breaker = s.line.observe.1.breaker := by
    rw [s.line.observe_line_breaker, ← h.breaker]
    exact Traffic.step_observe_breaker _ _ _
  have hspares {n : Nat} : s.log.Spares n (s.log.act s.line .observe) :=
    Logbook.spares_of_stays hstays
  refine ⟨h.terms.keeps hkeeps, hbreaker, h.log.stays hstays, h.numbered, ?_, ?_, h.cutShort⟩
  · intro n session hn
    show session.Sound limit base max s.line.observe.1.now _ n
    rw [hkeeps.now]
    exact (h.sessions n session hn).spares (Nat.ne_of_lt (Nat.lt_succ_self n)) hspares
  · intro p hp
    have hp' : p ∈ (s.log.act s.line .observe).traffic.afloat := hp
    rw [hstays.afloat] at hp'
    exact h.afloat p hp'

theorem Sound.step (h : s.Sound limit base max) (x : Happening) :
    (s.step x).Sound limit base max := by
  cases x with
  | place operation => exact h.place operation
  | go n => exact h.go n
  | drop n => exact h.drop n
  | observe => exact h.observe
  | elapse now => exact h.elapse now
  | elsewhere exchange => exact h.elsewhere exchange

theorem sound_ofLine {l : Line} (h : l.Terms limit base max) :
    (ofLine l).Sound limit base max := by
  have horderly : (ofLine l).log.traffic.Orderly := by
    refine ⟨?_, ?_, ?_, List.nodup_nil, List.Perm.refl _, ?_⟩
    · exact UInt64.ofNat_toNat.symm
    · exact fun p hp => absurd hp List.not_mem_nil
    · exact fun p hp => absurd hp List.not_mem_nil
    · exact fun r hr => absurd hr List.not_mem_nil
  refine ⟨h, rfl, ⟨horderly, rfl, rfl, rfl, ?_, ?_⟩, ?_, ?_, ?_, ?_⟩
  · exact fun r hr => absurd hr List.not_mem_nil
  · exact fun r hr => absurd hr List.not_mem_nil
  · exact fun k hk => absurd hk List.not_mem_nil
  · exact fun n session hn => by cases hn
  · exact fun p hp => absurd hp List.not_mem_nil
  · exact fun r hr => absurd hr List.not_mem_nil

theorem sound_run {l : Line} (h : l.Terms limit base max) (happenings : List Happening) :
    (run l happenings).Sound limit base max := by
  have hall : ∀ s : Switchboard, s.Sound limit base max →
      (happenings.foldl step s).Sound limit base max := by
    induction happenings with
    | nil => exact fun s hs => hs
    | cons x later ih => exact fun s hs => ih _ (hs.step x)
  exact hall _ (sound_ofLine h)

/-! ## What becomes of an attempt -/

/-- Each attempt that was let pass is told once, or still runs. -/
theorem Sound.told_once (h : s.Sound limit base max) {k : Ticket} (hk : k ∈ s.log.tickets) :
    (s.log.reports.map (·.ticket.pass)).count k.pass = 1 ∨
      (s.log.reports.map (·.ticket.pass)).count k.pass = 0 ∧
        ∃ session : Session, s.sessions[k.session]? = some session ∧
          session.Runs s.log k.session k.pass := by
  have hpass : k.pass ∈ s.log.traffic.passes := by
    rw [h.log.passes]
    exact List.mem_map_of_mem hk
  have hsame : s.log.traffic.settled.map (·.pass) = s.log.reports.map (·.ticket.pass) := by
    simpa [List.map_map, Function.comp_def] using congrArg (List.map Prod.fst) h.log.settled
  -- a call that passed has settled, or is afloat, or lost; and none is lost
  have hone := h.log.orderly.count_eq_one hpass
  rw [h.log.lost, List.count_nil, hsame] at hone
  by_cases hafloat : k.pass ∈ s.log.traffic.afloat
  · have hcount := List.count_pos_iff.mpr hafloat
    obtain ⟨n, session, hn, hruns⟩ := h.afloat _ hafloat
    have ⟨_, _, _, k', _, _, htickets, hpass'⟩ := hruns
    obtain ⟨hmem, rfl⟩ := Logbook.mem_of_ticketsOf (htickets ▸ List.mem_cons_self)
    obtain rfl := h.log.eq_of_pass hmem hk hpass'
    exact .inr ⟨by omega, session, hn, hruns⟩
  · have hcount := List.count_eq_zero.mpr hafloat
    exact .inl (by omega)

/-- The breaker is told of an attempt, and the log says so. -/
structure Tells (s s' : Switchboard) (k : Ticket) (outcome : Option Outcome) : Prop where
  reports : s'.log.reports = ⟨k, outcome, s.line.now⟩ :: s.log.reports
  breaker : s'.line.breaker = (s.line.breaker.record s.line.now k.pass.generation
    (Report.mk k outcome s.line.now).success s.line.callbacks.trips).breaker

variable {k : Ticket} {rest : List Ticket} {number : UInt32} {work : Attempt}

theorem tells_of_drop (hn : s.sessions[n]? = some ⟨c, false⟩)
    (hphase : c.phase = .running number work) (htickets : s.log.ticketsOf n = k :: rest)
    (hgeneration : work.generation = k.pass.generation) : Tells s (s.step (.drop n)) k none := by
  simp only [step, Switchboard.drop, hn, hphase, Logbook.enact_drops htickets, Call.abandon,
    hgeneration]
  exact ⟨rfl, s.line.abandon_breaker _⟩

theorem tells_of_cancelled (hn : s.sessions[n]? = some ⟨c, false⟩)
    (hphase : c.phase = .running number work) (htickets : s.log.ticketsOf n = k :: rest)
    (hgeneration : work.generation = k.pass.generation) (hcancelled : s.line.isCancelled = true) :
    Tells s (s.step (.go n)) k none := by
  simp only [step, Switchboard.go, hn, Call.step, Call.cancel, Call.deeds, hcancelled, hphase,
    if_true, List.foldl_cons, List.foldl_nil, Logbook.enact_drops htickets, hgeneration]
  exact ⟨rfl, s.line.abandon_breaker _⟩

theorem tells_of_ending (husual : s.line.callbacks.Usual) {outcome : Outcome}
    (hn : s.sessions[n]? = some ⟨c, false⟩) (hphase : c.phase = .running number work)
    (htickets : s.log.ticketsOf n = k :: rest) (hgeneration : work.generation = k.pass.generation)
    (hgoes : s.line.isCancelled = false) (hends : work.ending? s.line = some outcome) :
    Tells s (s.step (.go n)) k (some outcome) := by
  obtain ⟨_, _, hbreaker⟩ := Call.conclude_behind c s.line number work outcome
  simp only [step, Switchboard.go, hn, Call.step, Call.deeds, Call.endings, hgoes, hphase, hends,
    Call.proceed_eq, Bool.false_eq_true, if_false, Option.map_some, Option.toList_some,
    List.foldl_cons, List.foldl_nil, Logbook.enact_tells htickets]
  refine ⟨rfl, hbreaker.trans ?_⟩
  rw [s.line.leave_breaker husual, hgeneration]
  rfl

theorem begins_of_go (hn : s.sessions[n]? = some ⟨c, false⟩) :
    ∃ c', (s.step (.go n)).sessions[n]? = some ⟨c', false⟩ ∧
      (c'.begun = c.begun ∨ ∃ generation, s.line.enter.2 = .passed generation ∧
        c'.begun = s.line.now :: c.begun) := by
  have hlt : n < s.sessions.length := (List.getElem?_eq_some_iff.mp hn).1
  simp only [step, Switchboard.go, hn]
  exact ⟨_, List.getElem?_set_self hlt, c.step_begun s.line⟩

/-- A rejection ends a session at once, and nothing has run. -/
theorem ends_of_rejected {error : CallError} (hn : s.sessions[n]? = some ⟨c, false⟩)
    (hphase : c.phase = .ready number) (hgoes : s.line.isCancelled = false)
    (henter : s.line.enter.2 = .rejected error) :
    let s' := s.step (.go n)
    s'.sessions[n]? = some ⟨c.refuse s.line error, false⟩ ∧ s'.log.tickets = s.log.tickets ∧
      s'.log.reports = s.log.reports := by
  have hlt : n < s.sessions.length := (List.getElem?_eq_some_iff.mp hn).1
  simp only [step, Switchboard.go, hn, Call.step, Call.deeds, hgoes, hphase, henter,
    Call.make_of_rejected henter, Bool.false_eq_true, if_false, List.foldl_cons, List.foldl_nil]
  exact ⟨List.getElem?_set_self hlt, rfl, rfl⟩

/-- **Calls are protected end to end.** On any connection, with any calls on it, whatever they run
and whatever else happens, as long as there is no jitter:

* What a session runs is what the breaker has let pass: each of its attempts that began to run
  has a ticket, and the operation gave what it ran.
* The breaker is told of each of these attempts once, or the attempt still runs. It is told what
  is fair: the attempt's own end, classified by its kind, if that came before the timer of the call
  timeout fired or as it did, and a timeout at that very instant otherwise; a failure, if the
  session was cancelled or dropped. The timer is exact for attempts that pass at a whole
  millisecond.
* A rejection is at once the end of a session, with the error of the breaker.
* The pause after the attempt of a number takes the delay of that number, cut as all pauses are,
  whatever the other sessions do. -/
theorem protected_calls (connector : Connector) (connection : Connection)
    (happenings : List Happening) (hjitter : connector.config.retries.jitterRatio = 0.0) :
    let s := run (connector.line connection) happenings
    let limit := connector.config.timeouts.callTimeout
    let backoff := connection.policy.backoff
    (s.log.traffic.breaker = s.line.breaker ∧
      s.log.traffic.passes = s.log.tickets.map (·.pass) ∧
      (∀ (n : Nat) (session : Session), s.sessions[n]? = some session →
        session.call.begun = (s.log.ticketsOf n).map (·.pass.since) ∧
          ∀ k ∈ s.log.ticketsOf n, k.behaviour = session.call.operation k.invocation) ∧
      ∀ (n : Nat) (c : Call), s.sessions[n]? = some ⟨c, false⟩ →
        ∃ c', (s.step (.go n)).sessions[n]? = some ⟨c', false⟩ ∧
          (c'.begun = c.begun ∨ ∃ generation, s.line.enter.2 = .passed generation ∧
            c'.begun = s.line.now :: c.begun)) ∧
    ((∀ k ∈ s.log.tickets, (s.log.reports.map (·.ticket.pass)).count k.pass = 1 ∨
        (s.log.reports.map (·.ticket.pass)).count k.pass = 0 ∧
          ∃ session : Session, s.sessions[k.session]? = some session ∧
            session.Runs s.log k.session k.pass) ∧
      s.log.traffic.settled.map (fun r => (r.pass, r.success)) =
        s.log.reports.map (fun r => (r.ticket.pass, r.success)) ∧
      (∀ r ∈ s.log.reports, r.ticket ∈ s.log.tickets ∧ r.Fair limit ∧
        (r.outcome = none → ∃ session : Session,
          s.sessions[r.ticket.session]? = some session ∧ session.CutShort)) ∧
      (∀ ms, Clock.timer (Clock.ofMillis ms) limit = Clock.after (Clock.ofMillis ms) limit) ∧
      ∀ (n : Nat) (c : Call) (number : UInt32) (work : Attempt),
        s.sessions[n]? = some ⟨c, false⟩ → c.phase = .running number work →
          ∃ k rest, s.log.ticketsOf n = k :: rest ∧ work = k.attempt limit ∧
            k.pass ∈ s.log.traffic.afloat ∧ Tells s (s.step (.drop n)) k none ∧
            (s.line.isCancelled = true → Tells s (s.step (.go n)) k none) ∧
            (s.line.isCancelled = false → ∀ outcome, work.ending? s.line = some outcome →
              Tells s (s.step (.go n)) k (some outcome))) ∧
    (∀ (n : Nat) (c : Call) (number : UInt32) (error : CallError),
      s.sessions[n]? = some ⟨c, false⟩ → c.phase = .ready number →
        s.line.isCancelled = false → s.line.enter.2 = .rejected error →
          (error = .circuitOpen s.line.breaker.settings.name ∨
            error = .tooManyRequests s.line.breaker.settings.name) ∧
          let s' := s.step (.go n)
          ∃ c', s'.sessions[n]? = some ⟨c', false⟩ ∧ c'.phase = .over (.error error) ∧
            c'.ended = s.line.now ∧ c'.begun = c.begun ∧ s'.log.tickets = s.log.tickets ∧
            s'.log.reports = s.log.reports) ∧
    ∀ (n : Nat) (session : Session) (resume : Nat) (number : UInt32),
      s.sessions[n]? = some session → session.call.phase = .pausing resume number →
        ∃ r ∈ s.log.reports, (s.log.ticketsOf n).head? = some r.ticket ∧
          ∀ i : UInt32, (s.log.ticketsOf n).length = i.toNat + 1 →
            resume = Clock.wake r.time (Backoff.delay i backoff.base backoff.max) := by
  intro s limit backoff
  have h : s.Sound _ backoff.base backoff.max :=
    sound_run (connector.line_terms connection hjitter) happenings
  refine ⟨⟨h.breaker, h.log.passes, fun n session hn => ?_, fun n c hn => begins_of_go hn⟩,
    ⟨fun k hk => h.told_once hk, h.log.settled, fun r hr => ?_, ?_, ?_⟩, ?_, ?_⟩
  · exact ⟨(h.sessions n session hn).begun, (h.sessions n session hn).behaviour⟩
  · exact ⟨h.log.reported r hr, h.log.fair r hr, h.cutShort r hr⟩
  · exact fun ms => Timeout.timer_whole connector.config.timeouts.callMs ms
  · intro n c number work hn hphase
    obtain ⟨k, rest, htickets, hafloat, rfl, _⟩ :=
      (h.sessions n _ hn).running rfl number work hphase
    exact ⟨k, rest, htickets, rfl, hafloat, tells_of_drop hn hphase htickets rfl,
      tells_of_cancelled hn hphase htickets rfl,
      fun hgoes _ => tells_of_ending h.terms.usual hn hphase htickets rfl hgoes⟩
  · intro n c number error hn hphase hgoes henter
    obtain ⟨hsessions, htickets, hreports⟩ := ends_of_rejected hn hphase hgoes henter
    exact ⟨Desk.error_of_rejected henter, _, hsessions, rfl, rfl, rfl, htickets, hreports⟩
  · intro n session resume number hn hphase
    have hown := h.sessions n session hn
    obtain ⟨r, hr, hlatest, hresume⟩ := hown.pausing resume number hphase
    have hcounted := hown.counted (by simp [Call.isOver, hphase])
    exact ⟨r, hr, hlatest, fun i hi => hresume i (hcounted.trans hi)⟩

/-- A connector with nothing to resolve. -/
def quiet : Connector :=
  .equip .standard false (fun _ => 0.0) (.start ⟨[]⟩)

/-- A connection to one address that stays. -/
def fixed : Connection where
  target := ⟨"passthrough", none, "fixed", "fixed", "443"⟩
  resolver := none
  box := 0
  updates := ⟨0⟩
  breaker := .make (.ofConfig "fixed" .standard) 0
  policy := ⟨⟨.ofMillis64 200, .ofMillis64 30000, 0⟩, 3, false⟩
  token := ⟨[0]⟩

/-- Two calls run what never ends; one is dropped, and the other waits for a minute. -/
def waiting : List Happening :=
  let hanging : Operation := fun _ => ⟨.zero, .hangs⟩
  [.place hanging, .place hanging, .go 0, .go 1, .drop 1, .elapse 60_000_000_000]

/-- The call that has waited goes on, and the breaker is told that it has timed out. -/
theorem protected_calls_waiting :
    let s := run (quiet.line fixed) waiting
    let k : Ticket := ⟨0, 0, ⟨.zero, .hangs⟩, ⟨0, 0, 0, 0⟩⟩
    quiet.config.retries.jitterRatio = 0.0 ∧
      Tells s (s.step (.go 0)) k (some (.returns (.error (.timeout (.ofMillis64 60000))))) := by
  obtain ⟨-, ⟨-, -, -, -, hruns⟩, -⟩ := protected_calls quiet fixed waiting rfl
  obtain ⟨k, rest, htickets, _, _, _, _, hends⟩ := hruns 0 _ _ _ rfl rfl
  obtain ⟨rfl, _⟩ := List.cons.inj htickets
  exact ⟨rfl, hends rfl _ rfl⟩

/-- A connection whose sessions are to pause for a little more than thirty years. -/
def lasting : Connection :=
  { fixed with policy :=
    ⟨⟨.ofMillis64 946_080_000_001, .ofMillis64 946_080_000_001, 0⟩, 0, false⟩ }

/-- Timers count whole milliseconds, up to thirty years. An attempt that passes a nanosecond after
the origin may end later than the call timeout allows and is counted as it ended, and a pause is
cut, however long its delay is. -/
theorem timers_inexact :
    let limit := quiet.config.timeouts.callTimeout
    let slow := run (quiet.line fixed)
      [.elapse 1, .place fun _ => ⟨limit, .returns (.ok "d")⟩, .go 0, .elapse 60_001_000_000, .go 0]
    let cut := run (quiet.line lasting)
      [.place fun _ => ⟨.zero, .returns (.error (.failed "x"))⟩, .go 0, .go 0]
    ((∃ k, slow.log.reports = [⟨k, some (.returns (.ok "d")), 60_001_000_000⟩] ∧
        k.pass.since = 1 ∧ Clock.after k.pass.since limit < 60_001_000_000) ∧
      slow.line.breaker.counts = ⟨1, 1, 0, 1, 0⟩) ∧
    ∃ c resume number, cut.sessions[0]? = some ⟨c, false⟩ ∧ c.phase = .pausing resume number ∧
      resume = Clock.ofMillis 946_080_000_000 ∧
      resume ≠ Clock.after 0 (Backoff.delay 0 lasting.policy.backoff.base
        lasting.policy.backoff.max) := by
  refine ⟨⟨⟨⟨0, 0, _, ⟨0, 0, 0, 1⟩⟩, rfl, rfl, by decide⟩, rfl⟩, ?_⟩
  exact ⟨_, _, _, rfl, rfl, rfl, by decide⟩

end Switchboard

end Dialer
