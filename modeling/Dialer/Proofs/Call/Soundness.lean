import Dialer.Proofs.Call.Log

/-!
# Sessions, log and breaker go together

A switchboard is sound (`Switchboard.Sound`) if its log is in order, the breaker in the log is that
of the line, and each session is as its tickets and reports say (`Session.Sound`): an attempt that
runs is in flight and was not kept waiting, and a pause began with the report of the latest attempt.
An attempt in flight is run by some session, and only a session that was cut short has an attempt
that was dropped.

There is one lemma for each move of a call. All of them are cases of `Sound.update`: what one
session does at the breaker leaves the others sound.
-/

namespace Dialer

namespace Timeout

/-- A limit in milliseconds is never out of reach. -/
theorem deadline?_ofMillis64 (limit : UInt64) (since : Nat) :
    deadline? (.ofMillis64 limit) since =
      if (Duration.ofMillis64 limit).isZero then none
      else some (Clock.timer since (.ofMillis64 limit)) := by
  have hsecs : (Duration.ofMillis64 limit).secs < 1 <<< 63 := by
    have hlt := limit.toNat_lt
    show limit.toNat / 1000 < 1 <<< 63
    omega
  unfold deadline? Clock.deadline?
  rw [if_pos hsecs]

/-- At a whole millisecond the timer for a limit in milliseconds is exact. -/
theorem timer_whole (limit : UInt64) (ms : Nat) :
    Clock.timer (Clock.ofMillis ms) (.ofMillis64 limit) =
      Clock.after (Clock.ofMillis ms) (.ofMillis64 limit) := by
  have hafter : Clock.after (Clock.ofMillis ms) (.ofMillis64 limit) =
      Clock.ofMillis (ms + limit.toNat) := by
    unfold Clock.after Duration.ofMillis64 Clock.ofMillis
    rw [Duration.toNanos_ofMillis, Nat.add_mul]
  unfold Clock.timer
  rw [hafter, Clock.tick_ofMillis]

theorem le_deadline {limit : Duration} {now due : Nat} (h : deadline? limit now = some due) :
    now ≤ due := by
  unfold deadline? Clock.deadline? Clock.timer at h
  split at h
  · cases h
  · split at h
    · cases h
      exact Nat.le_trans (Nat.le_add_right _ _) (Clock.le_tick _)
    · cases h

end Timeout

/-- The instants at which an attempt ends or is cut off. -/
def Attempt.wakes (work : Attempt) : List Nat :=
  work.endsAt.toList ++ work.deadline.toList

theorem Attempt.mem_wakes {work : Attempt} {t : Nat} :
    t ∈ work.wakes ↔ work.endsAt = some t ∨ work.deadline = some t := by
  simp [wakes]

/-- What an attempt ends with is fair, if no instant was passed over at which it could go on. -/
theorem Ticket.fair_of_ending {k : Ticket} {l : Line} {limit : UInt64} {outcome : Outcome}
    (hlimit : l.callTimeout = .ofMillis64 limit)
    (hprompt : ∀ t ∈ (k.attempt (.ofMillis64 limit)).wakes, l.now ≤ t)
    (hends : (k.attempt (.ofMillis64 limit)).ending? l = some outcome) :
    (Report.mk k (some outcome) l.now).Fair (.ofMillis64 limit) := by
  have hdeadline : (k.attempt (.ofMillis64 limit)).deadline = _ :=
    Timeout.deadline?_ofMillis64 limit k.pass.since
  obtain ⟨t, howns, hle, rfl⟩ | ⟨hlate, t, hdue, hle, rfl⟩ := Attempt.ending?_cases hends
  · obtain rfl : l.now = t :=
      Nat.le_antisymm (hprompt t (Attempt.mem_wakes.mpr (.inl howns))) hle
    refine .own howns ?_ rfl rfl
    -- a deadline that there is has not passed either
    cases hzero : (Duration.ofMillis64 limit).isZero with
    | true => exact .inl rfl
    | false =>
        simp only [hzero, if_false, Bool.false_eq_true] at hdeadline
        exact .inr (hprompt _ (Attempt.mem_wakes.mpr (.inr hdeadline)))
  · have hnow : l.now = t :=
      Nat.le_antisymm (hprompt t (Attempt.mem_wakes.mpr (.inr hdue))) hle
    rw [hdue] at hdeadline
    split at hdeadline
    · cases hdeadline
    · rename_i hzero
      have htime : l.now = Clock.timer k.pass.since (.ofMillis64 limit) :=
        hnow.trans (Option.some.inj hdeadline)
      rw [hlimit]
      exact .timedOut (Bool.eq_false_iff.mpr hzero) htime hlate rfl rfl

/-! ## What always holds -/

section

variable (limit : UInt64) (base max : Duration)

/-- The terms of a line: usual callbacks, a call timeout in milliseconds, and no jitter. -/
structure Line.Terms (l : Line) : Prop where
  usual : l.callbacks.Usual
  callTimeout : l.callTimeout = .ofMillis64 limit
  jitterRatio : l.jitterRatio = 0.0
  base : l.connection.policy.backoff.base = base
  max : l.connection.policy.backoff.max = max

/-- The session runs the attempt of a pass. -/
def Session.Runs (b : Logbook) (n : Nat) (session : Session) (p : Pass) : Prop :=
  session.dropped = false ∧ ∃ number work k rest, session.call.phase = .running number work ∧
    b.ticketsOf n = k :: rest ∧ k.pass = p

/-- The session was dropped, or has been cancelled. -/
def Session.CutShort (session : Session) : Prop :=
  session.dropped = true ∨ session.call.phase = .over (.error .cancelled)

/-- A session goes with the log. -/
structure Session.Sound (now : Nat) (b : Logbook) (n : Nat) (session : Session) : Prop where
  /-- It has run nothing but what its tickets are for. -/
  begun : session.call.begun = (b.ticketsOf n).map (·.pass.since)
  behaviour : ∀ k ∈ b.ticketsOf n, k.behaviour = session.call.operation k.invocation
  counted : session.call.isOver = false → session.call.made = (b.ticketsOf n).length
  paced : session.call.Paced base max
  /-- An attempt that runs is in flight, and no one has kept it waiting. -/
  running : session.dropped = false → ∀ number work, session.call.phase = .running number work →
    ∃ k rest, b.ticketsOf n = k :: rest ∧ k.pass ∈ b.traffic.afloat ∧
      work = k.attempt (.ofMillis64 limit) ∧ ∀ t ∈ work.wakes, now ≤ t
  /-- A pause began with the report of the latest attempt. -/
  pausing : ∀ resume number, session.call.phase = .pausing resume number →
    ∃ r ∈ b.reports, (b.ticketsOf n).head? = some r.ticket ∧ ∀ index : UInt32,
      session.call.made = index.toNat + 1 →
        resume = Clock.wake r.time (Backoff.delay index base max)

/-- The sessions, the log and the breaker go together. -/
structure Switchboard.Sound (s : Switchboard) : Prop where
  terms : s.line.Terms limit base max
  breaker : s.log.traffic.breaker = s.line.breaker
  log : s.log.InOrder (.ofMillis64 limit)
  numbered : ∀ k ∈ s.log.tickets, k.session < s.sessions.length
  sessions : ∀ (n : Nat) (session : Session), s.sessions[n]? = some session →
    session.Sound limit base max s.line.now s.log n
  afloat : ∀ p ∈ s.log.traffic.afloat, ∃ (n : Nat) (session : Session),
    s.sessions[n]? = some session ∧ session.Runs s.log n p
  cutShort : ∀ r ∈ s.log.reports, r.outcome = none → ∃ session : Session,
    s.sessions[r.ticket.session]? = some session ∧ session.CutShort

end

variable {limit : UInt64} {base max : Duration}

theorem Line.Terms.keeps {l l' : Line} (h : l.Terms limit base max) (hkeeps : l.Keeps l') :
    l'.Terms limit base max where
  usual := hkeeps.callbacks ▸ h.usual
  callTimeout := hkeeps.callTimeout.trans h.callTimeout
  jitterRatio := hkeeps.jitterRatio.trans h.jitterRatio
  base := by rw [hkeeps.policy]; exact h.base
  max := by rw [hkeeps.policy]; exact h.max

theorem Connector.line_terms (connector : Connector) (connection : Connection)
    (hjitter : connector.config.retries.jitterRatio = 0.0) :
    (connector.line connection).Terms connector.config.timeouts.callMs
      connection.policy.backoff.base connection.policy.backoff.max :=
  ⟨BreakerCallbacks.usual_ofConfig _, rfl, hjitter, rfl, rfl⟩

theorem Session.Sound.spares {now n m : Nat} {b b' : Logbook} {session : Session}
    (h : session.Sound limit base max now b m) (hne : m ≠ n) (hspares : b.Spares n b') :
    session.Sound limit base max now b' m where
  begun := by rw [hspares.ticketsOf m hne]; exact h.begun
  behaviour := by rw [hspares.ticketsOf m hne]; exact h.behaviour
  counted := by rw [hspares.ticketsOf m hne]; exact h.counted
  paced := h.paced
  running hrunning number work hphase := by
    obtain ⟨k, rest, htickets, hafloat, hwork⟩ := h.running hrunning number work hphase
    obtain ⟨hmem, hown⟩ := Logbook.mem_of_ticketsOf (htickets ▸ List.mem_cons_self)
    exact ⟨k, rest, (hspares.ticketsOf m hne).trans htickets,
      hspares.afloat k hmem (hown ▸ hne) hafloat, hwork⟩
  pausing resume number hphase := by
    obtain ⟨r, hr, hrest⟩ := h.pausing resume number hphase
    exact ⟨r, hspares.reports r hr, (hspares.ticketsOf m hne).symm ▸ hrest⟩

theorem Session.Runs.spares {n m : Nat} {b b' : Logbook} {session : Session} {p : Pass}
    (h : session.Runs b m p) (hne : m ≠ n) (hspares : b.Spares n b') : session.Runs b' m p := by
  obtain ⟨hopen, number, work, k, rest, hphase, htickets, hp⟩ := h
  exact ⟨hopen, number, work, k, rest, hphase, (hspares.ticketsOf m hne).trans htickets, hp⟩

theorem Session.not_runs {n : Nat} {b : Logbook} {session : Session} {p : Pass}
    (h : ∀ number work, session.call.phase ≠ .running number work) : ¬ session.Runs b n p :=
  fun ⟨_, number, work, _, _, hphase, _⟩ => h number work hphase

theorem Session.sound_start {now n : Nat} {b : Logbook} (hnone : b.ticketsOf n = [])
    (operation : Operation) {p : RetryPolicy} (hbase : p.backoff.base = base)
    (hmax : p.backoff.max = max) :
    Session.Sound limit base max now b n ⟨.start operation p, false⟩ := by
  refine ⟨?_, ?_, ?_, hbase ▸ hmax ▸ Call.paced_start operation p, ?_, ?_⟩
  · rw [hnone]
    rfl
  · rw [hnone]
    exact fun k hk => absurd hk List.not_mem_nil
  · rw [hnone]
    exact fun _ => rfl
  · intro _ number work hrunning
    cases hrunning
  · intro resume number hpausing
    cases hpausing

/-- A session that is over has nothing to keep but its record. -/
theorem Session.Sound.over {now n : Nat} {b b' : Logbook} {c c' : Call}
    (h : Session.Sound limit base max now b n ⟨c, false⟩)
    (htickets : b'.ticketsOf n = b.ticketsOf n) (hbegun : c'.begun = c.begun)
    (hoperation : c'.operation = c.operation) (hover : c'.isOver = true) :
    Session.Sound limit base max now b' n ⟨c', false⟩ where
  begun := hbegun.trans (htickets ▸ h.begun)
  behaviour := by
    show ∀ k ∈ b'.ticketsOf n, k.behaviour = c'.operation k.invocation
    rw [htickets, hoperation]
    exact h.behaviour
  counted hgoes := absurd (hover.symm.trans hgoes) (by simp)
  paced := Call.paced_of_isOver hover
  running _ number work hphase := by
    simp only [Call.isOver, show c'.phase = _ from hphase] at hover
    exact absurd hover (by simp)
  pausing resume number hphase := by
    simp only [Call.isOver, show c'.phase = _ from hphase] at hover
    exact absurd hover (by simp)

theorem Session.Sound.dropped {now n : Nat} {b b' : Logbook} {c : Call}
    (h : Session.Sound limit base max now b n ⟨c, false⟩)
    (htickets : b'.ticketsOf n = b.ticketsOf n) (hreports : ∀ r ∈ b.reports, r ∈ b'.reports) :
    Session.Sound limit base max now b' n ⟨c, true⟩ where
  begun := htickets ▸ h.begun
  behaviour := htickets ▸ h.behaviour
  counted := htickets ▸ h.counted
  paced := h.paced
  running hopen := by cases hopen
  pausing resume number hphase := by
    obtain ⟨r, hr, hrest⟩ := h.pausing resume number hphase
    exact ⟨r, hreports r hr, htickets ▸ hrest⟩

theorem Session.Sound.boards {l : Line} {n : Nat} {b : Logbook} {c : Call} {number : UInt32}
    {generation : UInt64} (h : Session.Sound limit base max l.now b n ⟨c, false⟩)
    (hterms : l.Terms limit base max) (hphase : c.phase = .ready number)
    (hboards : b.traffic.Boards ((b.traffic.turn l.now).nextPass l.now generation)
      (b.act l .enter).traffic) :
    Session.Sound limit base max l.now
      (b.enact l n (.boards generation c.made (c.operation c.made))) n
      ⟨c.board l number generation, false⟩ := by
  have htickets := Logbook.ticketsOf_boards b l n generation c.made (c.operation c.made)
  have hcounted : c.made = (b.ticketsOf n).length := h.counted (by simp [Call.isOver, hphase])
  refine ⟨?_, ?_, ?_, ?_, ?_, ?_⟩
  · rw [htickets, List.map_cons, ← h.begun]
    rfl
  · rw [htickets]
    exact List.forall_mem_cons.mpr ⟨rfl, h.behaviour⟩
  · intro _
    rw [htickets, List.length_cons, ← hcounted]
    rfl
  · have hpaced := h.paced
    unfold Call.Paced at hpaced
    simp only [hphase] at hpaced
    exact ⟨c.made, rfl, hpaced⟩
  · intro _ _ work hrunning
    cases hrunning
    refine ⟨_, _, htickets, ?_, ?_, ?_⟩
    · show _ ∈ (b.act l .enter).traffic.afloat
      rw [hboards.afloat]
      exact List.mem_cons_self
    · unfold Call.attempt Ticket.attempt
      rw [hterms.callTimeout]
      rfl
    · intro t ht
      rcases Attempt.mem_wakes.mp ht with hends | hdue
      · exact Behaviour.le_endsAt hends
      · exact Timeout.le_deadline hdue
  · intro _ _ hpausing
    cases hpausing

/-- A session whose attempt has ended: it is over, or pauses for the next delay. -/
theorem Session.Sound.behind {l : Line} {n : Nat} {b b' : Logbook} {c c' : Call} {number : UInt32}
    {work : Attempt} (h : Session.Sound limit base max l.now b n ⟨c, false⟩)
    (hterms : l.Terms limit base max) (hphase : c.phase = .running number work)
    (hbehind : Call.Behind l c c') {r : Report} (hr : r ∈ b'.reports) (htime : r.time = l.now)
    (hlatest : (b.ticketsOf n).head? = some r.ticket)
    (htickets : b'.ticketsOf n = b.ticketsOf n) :
    Session.Sound limit base max l.now b' n ⟨c', false⟩ := by
  obtain ⟨hoperation, hmade', hbegun, hover | ⟨resume, number', hpause, hdrawn, hresume⟩⟩ := hbehind
  · exact h.over htickets hbegun hoperation hover
  have hpaced := h.paced
  unfold Call.Paced at hpaced
  simp only [hphase] at hpaced
  obtain ⟨drawn, hcount, hpaced⟩ := hpaced
  refine ⟨hbegun.trans (htickets ▸ h.begun), ?_, ?_, ?_, ?_, ?_⟩
  · show ∀ k ∈ b'.ticketsOf n, k.behaviour = c'.operation k.invocation
    rw [htickets, hoperation]
    exact h.behaviour
  · intro _
    rw [htickets]
    exact hmade'.trans (h.counted (by simp [Call.isOver, hphase]))
  · unfold Call.Paced
    simp only [hpause, hmade', hcount, hdrawn]
    exact hpaced.next
  · intro _ _ work' hrunning
    exact absurd (hpause.symm.trans hrunning) (by simp)
  · intro resume' number'' hpausing
    obtain ⟨rfl, rfl⟩ := CallPhase.pausing.inj (hpause.symm.trans hpausing)
    refine ⟨r, hr, htickets ▸ hlatest, fun index hindex => ?_⟩
    -- the generator has handed out one delay for each attempt before this one
    have hsame : index.toNat = drawn := by
      have hlast : c'.made = drawn + 1 := hmade'.trans hcount
      exact Nat.succ.inj (hindex.symm.trans hlast)
    rw [hresume hterms.jitterRatio, htime, hpaced.delay_eq hsame]

namespace Switchboard

variable {s : Switchboard} {n : Nat} {c c' : Call}

/-- What one session does leaves the others sound. -/
theorem Sound.update (h : s.Sound limit base max) {session next : Session} {line : Line}
    {log : Logbook} (hn : s.sessions[n]? = some session) (hkeeps : s.line.Keeps line)
    (hbreaker : log.traffic.breaker = line.breaker) (hlog : log.InOrder (.ofMillis64 limit))
    (hspares : s.log.Spares n log)
    (hnumbered : ∀ k ∈ log.tickets, k ∈ s.log.tickets ∨ k.session = n)
    (hnext : next.Sound limit base max s.line.now log n)
    (hafloat : ∀ p ∈ log.traffic.afloat, next.Runs log n p ∨
      p ∈ s.log.traffic.afloat ∧ ¬ session.Runs s.log n p)
    (hcut : ∀ r ∈ log.reports, r.outcome = none →
      r ∈ s.log.reports ∨ r.ticket.session = n ∧ next.CutShort)
    (hstays : session.CutShort → next.CutShort) :
    Sound limit base max ⟨line, s.sessions.set n next, log⟩ := by
  have hlt : n < s.sessions.length := (List.getElem?_eq_some_iff.mp hn).1
  have hself : (s.sessions.set n next)[n]? = some next := List.getElem?_set_self hlt
  have hother {m : Nat} (hne : m ≠ n) : (s.sessions.set n next)[m]? = s.sessions[m]? :=
    List.getElem?_set_ne hne.symm
  refine ⟨h.terms.keeps hkeeps, hbreaker, hlog, ?_, ?_, ?_, ?_⟩
  · intro k hk
    show k.session < (s.sessions.set n next).length
    rw [List.length_set]
    rcases hnumbered k hk with hold | rfl
    · exact h.numbered k hold
    · exact hlt
  · -- the session itself is sound by assumption, and the others were spared
    intro m other hm
    show other.Sound limit base max line.now log m
    rw [hkeeps.now]
    by_cases hne : m = n
    · subst hne
      obtain rfl := Option.some.inj (hself.symm.trans hm)
      exact hnext
    · exact (h.sessions m other ((hother hne).symm.trans hm)).spares hne hspares
  · -- an attempt that this session did not run was run by another
    intro p hp
    rcases hafloat p hp with hruns | ⟨hold, hnot⟩
    · exact ⟨n, next, hself, hruns⟩
    · obtain ⟨m, other, hm, hruns⟩ := h.afloat p hold
      have hne : m ≠ n := by
        rintro rfl
        obtain rfl := Option.some.inj (hn.symm.trans hm)
        exact hnot hruns
      exact ⟨m, other, (hother hne).trans hm, hruns.spares hne hspares⟩
  · intro r hr hnone
    rcases hcut r hr hnone with hold | ⟨hown, hnext⟩
    · obtain ⟨other, hm, hother'⟩ := h.cutShort r hold hnone
      by_cases hne : r.ticket.session = n
      · rw [hne, hn] at hm
        obtain rfl := Option.some.inj hm
        exact ⟨next, hne ▸ hself, hstays hother'⟩
      · exact ⟨other, (hother hne).trans hm, hother'⟩
    · exact ⟨next, hown ▸ hself, hnext⟩

theorem not_cutShort_of_phase (hphase : c.phase ≠ .over (.error .cancelled)) :
    ¬ Session.CutShort ⟨c, false⟩ := by
  rintro (hdropped | hover)
  · cases hdropped
  · exact hphase hover

/-- A session that does nothing at the breaker. -/
theorem Sound.aside (h : s.Sound limit base max) {session next : Session}
    (hn : s.sessions[n]? = some session) (hsound : next.Sound limit base max s.line.now s.log n)
    (hruns : ∀ p, session.Runs s.log n p → next.Runs s.log n p)
    (hstays : session.CutShort → next.CutShort) :
    Sound limit base max ⟨s.line, s.sessions.set n next, s.log⟩ := by
  have hspares : s.log.Spares n s.log := ⟨fun _ _ => rfl, fun _ _ _ hp => hp, fun _ hr => hr⟩
  refine h.update hn (.refl s.line) h.breaker h.log hspares (fun k hk => .inl hk) hsound ?_
    (fun r hr _ => .inl hr) hstays
  intro p hp
  by_cases hrun : session.Runs s.log n p
  · exact .inl (hruns p hrun)
  · exact .inr ⟨hp, hrun⟩

theorem Sound.resumes (h : s.Sound limit base max) {resume : Nat} {number : UInt32}
    (hn : s.sessions[n]? = some ⟨c, false⟩) (hphase : c.phase = .pausing resume number) :
    Sound limit base max
      ⟨s.line, s.sessions.set n ⟨{ c with phase := .ready number }, false⟩, s.log⟩ := by
  obtain ⟨hbegun, hbehaviour, hcounted, hpaced, -, -⟩ := h.sessions n _ hn
  have hpaced' : Call.Paced base max { c with phase := .ready number } := by
    unfold Call.Paced at hpaced ⊢
    simpa [hphase] using hpaced
  have hcounted' : c.made = (s.log.ticketsOf n).length :=
    hcounted (by simp [Call.isOver, hphase])
  refine h.aside hn ⟨hbegun, hbehaviour, fun _ => hcounted', hpaced', ?_, ?_⟩ ?_ ?_
  · intro _ number work hrunning
    cases hrunning
  · intro resume number hpausing
    cases hpausing
  · intro p hruns
    exact absurd hruns (Session.not_runs (by simp [hphase]))
  · intro hcut
    exact absurd hcut (not_cutShort_of_phase (by simp [hphase]))

theorem Sound.stops (h : s.Sound limit base max) (hn : s.sessions[n]? = some ⟨c, false⟩)
    (hphase : ∀ number work, c.phase ≠ .running number work) (made : Nat) :
    Sound limit base max ⟨s.line, s.sessions.set n
      ⟨{ c with made }.finish s.line (.over (.error .cancelled)), false⟩, s.log⟩ := by
  refine h.aside hn ((h.sessions n _ hn).over rfl rfl rfl rfl) ?_ (fun _ => .inr rfl)
  intro p hruns
  exact absurd hruns (Session.not_runs hphase)

theorem Sound.entry (h : s.Sound limit base max) :
    (s.log.traffic.desk.enter s.line.callbacks s.line.now).2 = s.line.enter.2 := by
  rw [s.line.enter_entry h.terms.usual, h.terms.usual.entry, ← h.breaker]

theorem Sound.enters (h : s.Sound limit base max) :
    (s.log.act s.line .enter).traffic.breaker = s.line.enter.1.breaker := by
  rw [s.line.enter_breaker, ← h.breaker]
  exact Traffic.step_enter_breaker _ _ _

theorem Sound.refused (h : s.Sound limit base max) {number : UInt32} {error : CallError}
    (hn : s.sessions[n]? = some ⟨c, false⟩) (hphase : c.phase = .ready number)
    (henter : s.line.enter.2 = .rejected error) :
    Sound limit base max ⟨s.line.enter.1, s.sessions.set n ⟨c.refuse s.line error, false⟩,
      s.log.enact s.line n .refused⟩ := by
  have hstays := Traffic.stays_of_rejected (h.entry.trans henter)
  refine h.update hn s.line.enter_keeps h.enters (h.log.stays hstays)
    (Logbook.spares_of_stays hstays) (fun k hk => .inl hk)
    ((h.sessions n _ hn).over rfl rfl rfl rfl) ?_ (fun r hr _ => .inl hr) ?_
  · intro p hp
    exact .inr ⟨hstays.afloat ▸ hp, Session.not_runs (by simp [hphase])⟩
  · intro hcut
    exact absurd hcut (not_cutShort_of_phase (by simp [hphase]))

theorem Sound.boards (h : s.Sound limit base max) {number : UInt32} {generation : UInt64}
    (hn : s.sessions[n]? = some ⟨c, false⟩) (hphase : c.phase = .ready number)
    (henter : s.line.enter.2 = .passed generation) :
    Sound limit base max ⟨s.line.enter.1,
      s.sessions.set n ⟨c.board s.line number generation, false⟩,
      s.log.enact s.line n (.boards generation c.made (c.operation c.made))⟩ := by
  have hboards : s.log.traffic.Boards _ (s.log.act s.line .enter).traffic :=
    Traffic.boards_of_passed (h.entry.trans henter)
  refine h.update hn s.line.enter_keeps h.enters
    (h.log.boards c.made (c.operation c.made) hboards)
    (Logbook.spares_boards hboards) ?_ ?_ ?_ (fun r hr _ => .inl hr) ?_
  · intro k hk
    rcases List.mem_cons.mp hk with rfl | hold
    · exact .inr rfl
    · exact .inl hold
  · exact (h.sessions n _ hn).boards h.terms hphase hboards
  · intro p hp
    have hp' : p ∈ (s.log.act s.line .enter).traffic.afloat := hp
    rw [hboards.afloat] at hp'
    rcases List.mem_cons.mp hp' with rfl | hold
    · exact .inl ⟨rfl, _, _, _, _, rfl, Logbook.ticketsOf_boards _ _ _ _ _ _, rfl⟩
    · exact .inr ⟨hold, Session.not_runs (by simp [hphase])⟩
  · intro hcut
    exact absurd hcut (not_cutShort_of_phase (by simp [hphase]))

/-- A session whose attempt the breaker is told of. -/
theorem Sound.reports (h : s.Sound limit base max) {number : UInt32} {work : Attempt}
    (hn : s.sessions[n]? = some ⟨c, false⟩) (hphase : c.phase = .running number work) {act : Act}
    {r : Report} {rest : List Ticket} (htickets : s.log.ticketsOf n = r.ticket :: rest)
    (hsettles : s.log.traffic.Settles r.ticket.pass r.success (s.log.act s.line act).traffic)
    (hfair : r.Fair (.ofMillis64 limit)) {line : Line} (hkeeps : s.line.Keeps line)
    (hbreaker : (s.log.act s.line act).traffic.breaker = line.breaker) {next : Session}
    (hnext : next.Sound limit base max s.line.now
      { s.log.act s.line act with reports := r :: s.log.reports } n)
    (hcut : r.outcome = none → next.CutShort) :
    Sound limit base max ⟨line, s.sessions.set n next,
      { s.log.act s.line act with reports := r :: s.log.reports }⟩ := by
  have hticket : r.ticket ∈ s.log.ticketsOf n := htickets ▸ List.mem_cons_self
  obtain ⟨hmem, hown⟩ := Logbook.mem_of_ticketsOf hticket
  refine h.update hn hkeeps hbreaker (h.log.settles hmem hsettles hfair)
    (h.log.spares_settles hticket hsettles) (fun k hk => .inl hk) hnext ?_ ?_ ?_
  · intro p hp
    have hp' : p ∈ (s.log.act s.line act).traffic.afloat := hp
    rw [hsettles.afloat] at hp'
    obtain ⟨hne, hold⟩ := h.log.orderly.afloat_nodup.mem_erase_iff.mp hp'
    -- the session has run its latest attempt, and that is no longer in flight
    refine .inr ⟨hold, ?_⟩
    rintro ⟨_, _, _, k, rest', _, htickets', hpass⟩
    obtain ⟨hk, _⟩ := List.cons.inj (htickets.symm.trans htickets')
    exact hne (hk ▸ hpass.symm)
  · intro r' hr' hnone
    rcases List.mem_cons.mp hr' with rfl | hold
    · exact .inr ⟨hown, hcut hnone⟩
    · exact .inl hold
  · intro hcut
    exact absurd hcut (not_cutShort_of_phase (by simp [hphase]))

theorem Sound.tells (h : s.Sound limit base max) {number : UInt32} {work : Attempt}
    {outcome : Outcome} (hn : s.sessions[n]? = some ⟨c, false⟩)
    (hphase : c.phase = .running number work) (hends : work.ending? s.line = some outcome) :
    Sound limit base max ⟨(c.conclude s.line number work outcome).2,
      s.sessions.set n ⟨(c.conclude s.line number work outcome).1, false⟩,
      s.log.enact s.line n (.tells outcome)⟩ := by
  have husual := h.terms.usual
  have hown := h.sessions n _ hn
  obtain ⟨k, rest, htickets, hafloat, rfl, hprompt⟩ := hown.running rfl number work hphase
  obtain ⟨hbehind, hkeeps, hbreaker⟩ :=
    Call.conclude_behind c s.line number (k.attempt (.ofMillis64 limit)) outcome
  have hlatest : (s.log.ticketsOf n).head? = some k := by rw [htickets]; rfl
  have hfair := Ticket.fair_of_ending h.terms.callTimeout hprompt hends
  have htells : Event.Tells ⟨s.line.now, s.line.callbacks, .leave k.pass.number outcome⟩
      k.pass.number outcome.succeeds :=
    .inl ⟨outcome, rfl, husual.verdict outcome⟩
  obtain ⟨hsettles, htold⟩ := Traffic.settles_of_tells h.log.orderly hafloat htells
  rw [Logbook.enact_tells htickets]
  refine h.reports hn hphase htickets hsettles hfair hkeeps ?_ ?_ (fun hnone => by cases hnone)
  · rw [hbreaker, s.line.leave_breaker husual, ← h.breaker]
    exact htold
  · exact hown.behind h.terms hphase hbehind List.mem_cons_self rfl hlatest rfl

theorem Sound.drops (h : s.Sound limit base max) {number : UInt32} {work : Attempt}
    (hn : s.sessions[n]? = some ⟨c, false⟩) (hphase : c.phase = .running number work)
    {next : Session} (hcut : next.CutShort)
    (hnext : ∀ b : Logbook, b.ticketsOf n = s.log.ticketsOf n →
      (∀ r ∈ s.log.reports, r ∈ b.reports) → next.Sound limit base max s.line.now b n) :
    Sound limit base max ⟨s.line.abandon work.generation, s.sessions.set n next,
      s.log.enact s.line n .drops⟩ := by
  obtain ⟨k, rest, htickets, hafloat, rfl, _⟩ :=
    (h.sessions n _ hn).running rfl number work hphase
  have htells : Event.Tells ⟨s.line.now, s.line.callbacks, .drop k.pass.number⟩ k.pass.number
      false := .inr ⟨rfl, rfl⟩
  obtain ⟨hsettles, htold⟩ := Traffic.settles_of_tells h.log.orderly hafloat htells
  have hkeeps := s.line.abandon_keeps k.pass.generation
  rw [Logbook.enact_drops htickets]
  refine h.reports hn hphase htickets hsettles (.dropped rfl rfl) hkeeps ?_
    (hnext _ rfl fun _ hr => List.mem_cons_of_mem _ hr) (fun _ => hcut)
  show _ = (s.line.abandon k.pass.generation).breaker
  rw [s.line.abandon_breaker, ← h.breaker]
  exact htold

end Switchboard

end Dialer
