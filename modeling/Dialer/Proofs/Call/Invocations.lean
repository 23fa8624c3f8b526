import Dialer.Proofs.Call.Protection

/-!
# How often an operation is invoked

A call invokes its operation at the start of each attempt, before the breaker is asked. What the
operation gave is run only if the attempt passes; if it is rejected, the operation was still invoked
for it. So the invocations of a session are its admitted and its rejected attempts together
(`every_attempt_invokes`), and they are as many as the admitted ones only where none was rejected.

* `Call.step_made` — one step: each passage and each refusal is an invocation;
* `Logbook.length_ticketsOf` — the log takes down the passages, and nothing else, as tickets;
* `Switchboard.Counted` — the two together, kept by whatever happens while no call is cancelled.
-/

namespace Dialer

namespace Call

variable {c : Call} {l : Line}

def Deed.isPassage : Deed → Bool
  | .boards _ _ _ => true
  | _ => false

def Deed.isRefusal : Deed → Bool
  | .refused => true
  | _ => false

/-! ## One step -/

@[simp] theorem countP_endings (work : Attempt) (l : Line) :
    (endings work l).countP Deed.isPassage = 0 ∧ (endings work l).countP Deed.isRefusal = 0 := by
  unfold endings
  cases work.ending? l <;> simp [Deed.isPassage, Deed.isRefusal]

theorem proceed_made (c : Call) (l : Line) (number : UInt32) (work : Attempt) :
    (c.proceed l number work).1.made = c.made := by
  rw [proceed_eq]
  cases work.ending? l with
  | none => rfl
  | some outcome => exact (conclude_behind c l number work outcome).1.made

/-- Whatever the breaker answers, an attempt has invoked the operation. -/
theorem make_made (h : l.callbacks.Usual) (c : Call) (number : UInt32) :
    (c.make l number).1.made = c.made + 1 := by
  cases henter : l.enter.2 with
  | passed generation => rw [make_of_passed henter, proceed_made]; rfl
  | rejected error => rw [make_of_rejected henter]; rfl
  | raised => exact absurd henter (enter_not_raised h)

theorem deeds_of_ready {number : UInt32} (h : l.callbacks.Usual) (hphase : c.phase = .ready number)
    (hgoes : l.isCancelled = false) :
    (c.deeds l).countP Deed.isPassage + (c.deeds l).countP Deed.isRefusal = 1 := by
  unfold deeds
  simp only [hgoes, hphase, Bool.false_eq_true, if_false]
  cases henter : l.enter.2 with
  | passed generation =>
      have hends := countP_endings (c.attempt l generation) l
      simp [List.countP_cons, hends, Deed.isPassage, Deed.isRefusal]
  | rejected error => rfl
  | raised => exact absurd henter (enter_not_raised h)

/-- **An operation is invoked once for each time the breaker is asked.** -/
theorem step_made (h : l.callbacks.Usual) (c : Call) (hgoes : l.isCancelled = false) :
    (c.step l).1.made =
      c.made + ((c.deeds l).countP Deed.isPassage + (c.deeds l).countP Deed.isRefusal) := by
  unfold step
  rw [if_neg (by simp [hgoes])]
  cases hphase : c.phase with
  | ready number =>
      rw [deeds_of_ready h hphase hgoes]
      exact make_made h c number
  | running number work =>
      have hdeeds : c.deeds l = endings work l := by simp [deeds, hgoes, hphase]
      simp [hdeeds, proceed_made]
  | pausing resume number =>
      have hdeeds : c.deeds l = [] := by simp [deeds, hgoes, hphase]
      rw [hdeeds]
      dsimp only
      split <;> rfl
  | _ =>
      have hdeeds : c.deeds l = [] := by simp [deeds, hgoes, hphase]
      rw [hdeeds]
      rfl

theorem Went.keeps {l' : Line} {c' : Call} {deeds : List Deed} (h : Went l c deeds l' c') :
    l.Keeps l' := by
  induction h with
  | here l c => exact .refl l
  | move hmoves _ ih => exact hmoves.keeps.trans ih

end Call

/-! ## The log -/

namespace Logbook

open Call

/-- Only a passage is taken down as a ticket, and only for the session that passes. -/
theorem length_ticketsOf_enact (b : Logbook) (l : Line) (n m : Nat) (deed : Deed) :
    ((b.enact l m deed).ticketsOf n).length =
      (b.ticketsOf n).length + if m = n then [deed].countP Deed.isPassage else 0 := by
  cases deed with
  | refused => simp [enact, act, ticketsOf, Deed.isPassage]
  | boards generation invocation behaviour =>
      by_cases hm : m = n
      · subst hm
        rw [ticketsOf_boards]
        simp [Deed.isPassage]
      · simp [enact, ticketsOf, hm]
  | tells outcome =>
      simp only [enact]
      cases b.ticketsOf m <;> simp [act, ticketsOf, Deed.isPassage]
  | drops =>
      simp only [enact]
      cases b.ticketsOf m <;> simp [act, ticketsOf, Deed.isPassage]

theorem length_ticketsOf (l : Line) (n m : Nat) (deeds : List Deed) (b : Logbook) :
    ((deeds.foldl (·.enact l m ·) b).ticketsOf n).length =
      (b.ticketsOf n).length + if m = n then deeds.countP Deed.isPassage else 0 := by
  induction deeds generalizing b with
  | nil => simp
  | cons deed later ih =>
      rw [List.foldl_cons, ih, length_ticketsOf_enact, List.countP_cons (l := later)]
      by_cases hm : m = n
      · simp only [hm, if_true, List.countP_singleton]
        omega
      · simp only [hm, if_false]

end Logbook

/-! ## A run -/

namespace Switchboard

open Call

variable {s : Switchboard}

/-- How many attempts of a session the breaker rejects in one happening. -/
def refusals (s : Switchboard) (n : Nat) : Happening → Nat
  | .go m =>
    match s.sessions[m]? with
    | some ⟨c, false⟩ => if m = n then (c.deeds s.line).countP Deed.isRefusal else 0
    | _ => 0
  | _ => 0

/-- The same in a number of happenings, one after the other. -/
def refusalsIn (n : Nat) : Switchboard → List Happening → Nat
  | _, [] => 0
  | s, x :: later => s.refusals n x + refusalsIn n (s.step x) later

/-- No call is cancelled while this happens. -/
def Uncancelled : Switchboard → List Happening → Prop
  | _, [] => True
  | s, x :: later => s.line.isCancelled = false ∧ Uncancelled (s.step x) later

/-- Each session has invoked its operation for the attempts let pass and for those rejected. -/
structure Counted (s : Switchboard) (rejected : Nat → Nat) : Prop where
  usual : s.line.callbacks.Usual
  made : ∀ (n : Nat) (session : Session), s.sessions[n]? = some session →
    session.call.made = (s.log.ticketsOf n).length + rejected n
  beyond : ∀ n, s.sessions.length ≤ n → (s.log.ticketsOf n).length = 0 ∧ rejected n = 0

variable {rejected : Nat → Nat}

theorem Counted.aside (h : s.Counted rejected) {s' : Switchboard}
    (hcallbacks : s'.line.callbacks = s.line.callbacks) (hsessions : s'.sessions = s.sessions)
    (htickets : s'.log.tickets = s.log.tickets) : s'.Counted rejected := by
  have hof (n : Nat) : s'.log.ticketsOf n = s.log.ticketsOf n := by
    simp only [Logbook.ticketsOf, htickets]
  refine ⟨hcallbacks ▸ h.usual, ?_, ?_⟩
  · intro n session hn
    rw [hof]
    exact h.made n session (hsessions ▸ hn)
  · intro n hn
    rw [hof]
    exact h.beyond n (hsessions ▸ hn)

theorem Counted.go (h : s.Counted rejected) (hgoes : s.line.isCancelled = false) (m : Nat) :
    (s.go m).Counted (fun n => rejected n + s.refusals n (.go m)) := by
  by_cases hm : ∃ c, s.sessions[m]? = some ⟨c, false⟩
  · obtain ⟨c, hm⟩ := hm
    have hlt : m < s.sessions.length := (List.getElem?_eq_some_iff.mp hm).1
    have hkeeps := (c.step_went s.line h.usual).keeps
    have hmade := step_made h.usual c hgoes
    have hself : c.made = _ := h.made m _ hm
    simp only [Switchboard.go, refusals, hm]
    refine ⟨hkeeps.callbacks ▸ h.usual, ?_, ?_⟩
    · intro n session hn
      rw [Logbook.length_ticketsOf]
      obtain ⟨rfl, rfl⟩ | ⟨hne, hn⟩ := session_set hn
      · simp only [if_true]
        omega
      · simp only [hne, if_false, Nat.add_zero]
        exact h.made n session hn
    · intro n hn
      rw [List.length_set] at hn
      have hne : m ≠ n := by omega
      rw [Logbook.length_ticketsOf]
      simp only [hne, if_false, Nat.add_zero]
      exact h.beyond n hn
  · -- there is no such session, or it was dropped
    have hidle : s.go m = s ∧ ∀ n, s.refusals n (.go m) = 0 := by
      rcases hsession : s.sessions[m]? with _ | ⟨c, _ | _⟩
      · simp [Switchboard.go, refusals, hsession]
      · exact absurd ⟨c, hsession⟩ hm
      · simp [Switchboard.go, refusals, hsession]
    simpa only [hidle.1, hidle.2, Nat.add_zero] using h

theorem Counted.drop (h : s.Counted rejected) (m : Nat) : (s.drop m).Counted rejected := by
  by_cases hm : ∃ c, s.sessions[m]? = some ⟨c, false⟩
  · obtain ⟨c, hm⟩ := hm
    have htickets (n : Nat) : ((s.drop m).log.ticketsOf n).length = (s.log.ticketsOf n).length := by
      have hdrops := Logbook.length_ticketsOf_enact s.log s.line n m .drops
      simp only [Switchboard.drop, hm]
      cases c.phase <;> simp_all [Deed.isPassage]
    have hsessions : (s.drop m).sessions = s.sessions.set m ⟨c, true⟩ := by
      simp only [Switchboard.drop, hm]
    have hcallbacks : (s.drop m).line.callbacks = s.line.callbacks := by
      simp only [Switchboard.drop, hm, Call.abandon]
      split
      · exact (s.line.abandon_keeps _).callbacks
      · rfl
    refine ⟨hcallbacks ▸ h.usual, ?_, ?_⟩
    · intro n session hn
      rw [htickets]
      rw [hsessions] at hn
      obtain ⟨rfl, rfl⟩ | ⟨-, hn⟩ := session_set hn
      · exact h.made m ⟨c, false⟩ hm
      · exact h.made n session hn
    · intro n hn
      rw [htickets]
      rw [hsessions, List.length_set] at hn
      exact h.beyond n hn
  · have hidle : s.drop m = s := by
      unfold Switchboard.drop
      rcases hsession : s.sessions[m]? with _ | ⟨c, _ | _⟩
      · rfl
      · exact absurd ⟨c, hsession⟩ hm
      · rfl
    rwa [hidle]

theorem Counted.place (h : s.Counted rejected) (operation : Operation) :
    (s.step (.place operation)).Counted rejected := by
  refine ⟨h.usual, ?_, ?_⟩
  · intro n session hn
    obtain hn | ⟨rfl, rfl⟩ := session_placed hn
    · exact h.made n session hn
    · have hbeyond := h.beyond s.sessions.length (Nat.le_refl _)
      show 0 = (s.log.ticketsOf _).length + _
      omega
  · exact fun n hn => h.beyond n (Nat.le_trans (List.prefix_append s.sessions _).length_le hn)

theorem Counted.step (h : s.Counted rejected) (hgoes : s.line.isCancelled = false) (x : Happening) :
    (s.step x).Counted (fun n => rejected n + s.refusals n x) := by
  cases x with
  | place operation => exact h.place operation
  | go m => exact h.go hgoes m
  | drop m => exact h.drop m
  | observe => exact h.aside s.line.observe_keeps.callbacks rfl rfl
  | elapse now =>
      refine Counted.aside h ?_ ?_ ?_ <;>
        · unfold Switchboard.step
          dsimp only
          split <;> rfl
  | elsewhere exchange => exact h.aside rfl rfl rfl

theorem Counted.foldl {happenings : List Happening} (h : s.Counted rejected)
    (hgoes : s.Uncancelled happenings) :
    (happenings.foldl Switchboard.step s).Counted
      (fun n => rejected n + refusalsIn n s happenings) := by
  -- the refusals so far are generalised, as each step adds its own to them
  induction happenings generalizing s rejected with
  | nil => exact h
  | cons x later ih =>
      have hlater := ih (h.step hgoes.1 x) hgoes.2
      simp only [Nat.add_assoc] at hlater
      exact hlater

theorem counted_run {l : Line} (h : l.callbacks.Usual) {happenings : List Happening}
    (hgoes : (ofLine l).Uncancelled happenings) :
    (run l happenings).Counted (fun n => refusalsIn n (ofLine l) happenings) := by
  have hstart : (ofLine l).Counted (fun _ => 0) := by
    refine ⟨h, ?_, fun n _ => ⟨rfl, rfl⟩⟩
    intro n session hn
    cases hn
  have hrun := hstart.foldl hgoes
  simp only [Nat.zero_add] at hrun
  exact hrun

/-- **Every attempt invokes the operation, admitted or not.** On any connection, with any calls on
it, whatever they run and whatever else happens, as long as no call is cancelled:

* A session has invoked its operation as often as the breaker has admitted and rejected attempts of
  it. These are as many as the admitted ones only if none was rejected.
* A rejection is such an invocation: the call fails at once, the operation has been invoked once
  more, and what it gave never runs. -/
theorem every_attempt_invokes (connector : Connector) (connection : Connection)
    (happenings : List Happening)
    (hgoes : (ofLine (connector.line connection)).Uncancelled happenings) :
    let l := connector.line connection
    let s := run l happenings
    (∀ (n : Nat) (session : Session), s.sessions[n]? = some session →
      session.call.made = (s.log.ticketsOf n).length + refusalsIn n (ofLine l) happenings ∧
        (session.call.made = (s.log.ticketsOf n).length ↔
          refusalsIn n (ofLine l) happenings = 0)) ∧
    ∀ (n : Nat) (c : Call) (number : UInt32) (error : CallError),
      s.sessions[n]? = some ⟨c, false⟩ → c.phase = .ready number →
        s.line.isCancelled = false → s.line.enter.2 = .rejected error →
          s.refusals n (.go n) = 1 ∧
          let s' := s.step (.go n)
          ∃ c', s'.sessions[n]? = some ⟨c', false⟩ ∧ c'.phase = .over (.error error) ∧
            c'.made = c.made + 1 ∧ c'.begun = c.begun ∧ s'.log.tickets = s.log.tickets := by
  intro l s
  have husual : l.callbacks.Usual := BreakerCallbacks.usual_ofConfig connector.config.breaker
  have hcounted := counted_run husual hgoes
  refine ⟨?_, ?_⟩
  · intro n session hn
    have hmade := hcounted.made n session hn
    refine ⟨hmade, ?_⟩
    rw [hmade]
    exact Nat.add_eq_left
  · intro n c number error hn hphase huncancelled henter
    obtain ⟨hsessions, htickets, -⟩ := ends_of_rejected hn hphase huncancelled henter
    refine ⟨?_, _, hsessions, rfl, rfl, rfl, htickets⟩
    simp [refusals, hn, Call.deeds, huncancelled, hphase, henter, Deed.isRefusal]

/-- A connector whose breakers open at the first failure. -/
def touchy : Connector :=
  { quiet with
    config := { Config.standard with breaker := { BreakerConfig.standard with minRequests := 1 } } }

/-- A call fails, which opens the circuit, and is tried again after its pause. -/
def tripping : List Happening :=
  let failing : Operation := fun _ => .immediate (.error (.failed "boom"))
  [.place failing, .go 0, .elapse 200_000_000, .go 0, .go 0]

/-- The call has invoked its operation twice, and the breaker has admitted it once. -/
theorem rejected_attempt_invokes :
    let l := touchy.line fixed
    let s := run l tripping
    (ofLine l).Uncancelled tripping ∧ s.sessions.map (·.call.made) = [2] ∧
      s.log.tickets.length = 1 := by
  refine ⟨⟨rfl, rfl, rfl, rfl, rfl, trivial⟩, rfl, rfl⟩

theorem every_attempt_invokes_tripping :
    let l := touchy.line fixed
    let s := run l tripping
    (ofLine l).Uncancelled tripping ∧ ∃ session, s.sessions[0]? = some session ∧
      session.call.made = (s.log.ticketsOf 0).length + 1 := by
  have hgoes : (ofLine (touchy.line fixed)).Uncancelled tripping :=
    ⟨rfl, rfl, rfl, rfl, rfl, trivial⟩
  obtain ⟨hmade, -⟩ := every_attempt_invokes touchy fixed tripping hgoes
  exact ⟨hgoes, _, rfl, (hmade 0 _ rfl).1⟩

end Switchboard

end Dialer
