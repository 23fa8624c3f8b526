import Dialer.Proofs.Resolver.Attendance

/-!
# One resolution cycle

A cycle begins with a look into the cache (`Onset`). What it does until its result is there is one
of four courses (`Onset.Finds`): the cache has addresses, an answer comes, the lookup fails, or it
is given up. Then the result is published, and the watch is at rest.

On its way a cycle stands at one of four stages, each with what it has done so far (`Onset.Stage`).
Steps of its own bring it on (`Stage.go`); all else that happens leaves it where it is, but may
bring the end of its wait (`Stage.others`). So the cycle is at one of its stages, or done, whatever
comes in between (`Stage.course`). In particular the cache may be written or cleared between the
look into it at the beginning and the storing at the end.
-/

namespace Dialer.Resolver

/-- The beginning of a cycle: the watch that begins it, the instant, and what the cache has under
the key then. -/
structure Onset where
  number : Nat
  assignment : Assignment
  time : Nat
  cached : Option (List Address)

namespace Onset

/-- The cycle that a watch begins now. -/
def of (v : Chronicle) (n : Nat) (w : Watch) : Onset :=
  ⟨n, w.assignment, v.shared.now, v.shared.cache.get? w.assignment.key⟩

/-- What the watch does at an instant. -/
def entry (c : Onset) (time : Nat) (deed : Deed) : Entry :=
  ⟨c.number, c.assignment, time, deed⟩

/-- The cache has no addresses. An entry without any is as good as none. -/
def Misses (c : Onset) : Prop :=
  c.cached.getD [] = []

/-- The instant at which the timer of the limit fires, if it was set as the cycle began. -/
def deadline? (c : Onset) : Option Nat :=
  Clock.deadline? c.time c.assignment.limit

/-- Nothing has kept the loop waiting: it asked as its cycle began, and neither the answer nor the
deadline has gone by. -/
structure InTime (c : Onset) (asked : Nat) (answer : LookupAnswer) (now : Nat) : Prop where
  atOnce : asked = c.time
  answered : ∀ due, answer.comesAt asked = some due → now ≤ due
  limited : ∀ d, c.deadline? = some d → now ≤ d

/-- What a cycle does until its result is there, the latest first, and the addresses that it finds.
The result is there at an instant, and in time if the loop is prompt. -/
inductive Finds (c : Onset) (prompt : Prop) : List Entry → List Address → Nat → Prop
  /-- The cache has addresses, and they are served. -/
  | serves (a : Address) (rest : List Address) (hcached : c.cached = some (a :: rest)) :
      Finds c prompt [c.entry c.time (.serves (a :: rest))] (a :: rest) c.time
  /-- An answer has come, and its addresses are stored. -/
  | hears (asked heard due : Nat) (answer : LookupAnswer) (entries : List String)
      (hmisses : c.Misses) (hfinding : answer.finding = .ips entries)
      (hdue : answer.comesAt asked = some due) (hcame : due ≤ heard)
      (hprompt : prompt → c.InTime asked answer heard) :
      Finds c prompt
        [c.entry heard (.stores (Watch.addressesOf c.assignment.port entries)),
          c.entry heard (.hears entries), c.entry asked (.asks answer)]
        (Watch.addressesOf c.assignment.port entries) heard
  /-- The lookup has failed. -/
  | fails (asked failed due : Nat) (answer : LookupAnswer) (error : LookupError)
      (hmisses : c.Misses) (hfinding : answer.finding = .fails error)
      (hdue : answer.comesAt asked = some due) (hcame : due ≤ failed)
      (hprompt : prompt → c.InTime asked answer failed) :
      Finds c prompt [c.entry failed .fails, c.entry asked (.asks answer)] [] failed
  /-- The deadline is there, and no answer. -/
  | givesUp (asked left d : Nat) (answer : LookupAnswer) (hmisses : c.Misses)
      (hlimit : Clock.deadline? asked c.assignment.limit = some d) (hover : d ≤ left)
      (hlate : ∀ due, answer.comesAt asked = some due → left < due)
      (hprompt : prompt → c.InTime asked answer left) :
      Finds c prompt [c.entry left .fails, c.entry asked (.asks answer)] [] left

/-- What is found is published, and nothing more is done unless the watch has begun again. -/
inductive Done (c : Onset) (prompt again : Prop) : List Entry → Prop
  | intro (later entries : List Entry) (addresses : List Address) (ended time : Nat)
      (hfinds : c.Finds prompt entries addresses ended) (htime : prompt → time = ended)
      (hlimited : prompt → ∀ d, c.deadline? = some d → time ≤ d) (honce : again ∨ later = []) :
      Done c prompt again (later ++ c.entry time (.publishes addresses) :: entries)

/-- The lookup of a watch goes on, and neither its answer nor its deadline is there. -/
structure Waits (c : Onset) (asked : Nat) (answer : LookupAnswer) (now : Nat) (w : Watch) :
    Prop where
  phase : w.phase = .looking (.begun answer asked c.assignment.limit)
  unanswered : ∀ due, answer.comesAt asked = some due → now < due
  early : ∀ d, Clock.deadline? asked c.assignment.limit = some d → now < d

/-- How far a cycle has come that has not published, and what it has done so far. After so many
steps of its own, at most, it has published or waits. -/
inductive Stage (c : Onset) (prompt : Prop) (v : Chronicle) (w : Watch) : Nat → List Entry → Prop
  | missed (hpoint : v.points c.number = some .missed) (hmisses : c.Misses)
      (hnow : prompt → v.shared.now = c.time) : Stage c prompt v w 2 []
  | looking (asked : Nat) (answer : LookupAnswer) (hpoint : v.points c.number = none)
      (hphase : w.phase = .looking (.begun answer asked c.assignment.limit)) (hmisses : c.Misses)
      (hprompt : prompt → c.InTime asked answer v.shared.now) :
      Stage c prompt v w 2 [c.entry asked (.asks answer)]
  | waits (asked : Nat) (answer : LookupAnswer) (hpoint : v.points c.number = none)
      (hwaits : c.Waits asked answer v.shared.now w) (hmisses : c.Misses)
      (hprompt : prompt → c.InTime asked answer v.shared.now) :
      Stage c prompt v w 0 [c.entry asked (.asks answer)]
  | found (entries : List Entry) (addresses : List Address) (ended : Nat)
      (hpoint : v.points c.number = some (.found addresses))
      (hfinds : c.Finds prompt entries addresses ended) (hnow : prompt → v.shared.now = ended) :
      Stage c prompt v w 1 entries

/-! ## From stage to stage -/

open Chronicle

variable {c : Onset} {prompt : Prop} {v : Chronicle} {w : Watch} {entries : List Entry}

theorem le_deadline {d : Nat} (h : c.deadline? = some d) : c.time ≤ d := by
  unfold deadline? Clock.deadline? at h
  split at h
  · obtain rfl := Option.some.inj h
    exact Nat.le_trans (Nat.le_add_right ..) (Clock.le_tick _)
  · cases h

theorem Finds.limited {addresses : List Address} {ended : Nat}
    (h : c.Finds prompt entries addresses ended) (hprompt : prompt) {d : Nat}
    (hd : c.deadline? = some d) : ended ≤ d := by
  cases h with
  | serves => exact le_deadline hd
  | hears asked heard due answer entries hmisses hfinding hdue hcame hintime =>
      exact (hintime hprompt).limited d hd
  | fails asked failed due answer error hmisses hfinding hdue hcame hintime =>
      exact (hintime hprompt).limited d hd
  | givesUp asked left d' answer hmisses hlimit hover hlate hintime =>
      exact (hintime hprompt).limited d hd

/-- What becomes of a lookup is a stage of its cycle. -/
theorem stage_of_seeks {l l' : Loop} {asked now : Nat} {answer : LookupAnswer} {deeds : List Deed}
    (h : l.Seeks asked answer now deeds l') (hassignment : l.watch.assignment = c.assignment)
    (hmisses : c.Misses) (hprompt : prompt → c.InTime asked answer now)
    (hpoint : v.points c.number = l'.point) (hnow : v.shared.now = now) :
    ∃ k, k ≤ 1 ∧ c.Stage prompt v l'.watch k
      (deeds.map (c.entry now) ++ [c.entry asked (.asks answer)]) := by
  cases h with
  | hears heard due hfinding hdue hcame =>
      rw [hassignment] at hpoint ⊢
      exact ⟨1, Nat.le_refl 1, .found _ _ now hpoint
        (.hears asked now due answer heard hmisses hfinding hdue hcame hprompt) fun _ => hnow⟩
  | fails error due hfinding hdue hcame =>
      exact ⟨1, Nat.le_refl 1, .found _ _ now hpoint
        (.fails asked now due answer error hmisses hfinding hdue hcame hprompt) fun _ => hnow⟩
  | givesUp d hlimit hover hlate =>
      rw [hassignment] at hlimit
      exact ⟨1, Nat.le_refl 1, .found _ _ now hpoint
        (.givesUp asked now d answer hmisses hlimit hover hlate hprompt) fun _ => hnow⟩
  | waits hcomes hlimit =>
      rw [hassignment] at hlimit ⊢
      subst hnow
      exact ⟨0, Nat.zero_le 1, .waits asked answer hpoint ⟨rfl, hcomes, hlimit⟩ hmisses hprompt⟩

/-- A lookup with its answer and its deadline to come is waited for. -/
theorem seeks_of_early {l l' : Loop} {asked now : Nat} {answer : LookupAnswer}
    {deeds : List Deed} (h : l.Seeks asked answer now deeds l')
    (hcomes : ∀ due, answer.comesAt asked = some due → now < due)
    (hlimit : ∀ d, Clock.deadline? asked l.watch.assignment.limit = some d → now < d) :
    deeds = [] ∧ l' = .ofWatch { l.watch with
      phase := .looking (.begun answer asked l.watch.assignment.limit) } := by
  cases h with
  | hears heard due hfinding hdue hcame => exact absurd (hcomes due hdue) (Nat.not_lt_of_le hcame)
  | fails error due hfinding hdue hcame => exact absurd (hcomes due hdue) (Nat.not_lt_of_le hcame)
  | givesUp d hdeadline hover hlate => exact absurd (hlimit d hdeadline) (Nat.not_lt_of_le hover)
  | waits => exact ⟨rfl, rfl⟩

/-- What is asked as a cycle begins is asked in time. -/
theorem inTime_of_asked {now : Nat} (hnow : now = c.time) (answer : LookupAnswer) :
    c.InTime now answer now := by
  subst hnow
  refine ⟨rfl, fun due hdue => ?_, fun d hd => le_deadline hd⟩
  exact Watch.le_answerTime (s := { Shared.start ⟨[]⟩ with now := c.time }) hdue

/-- **A step of its own brings a cycle on.** In the end it has published, and is at rest. -/
theorem Stage.act {k : Nat} (h : c.Stage prompt v w k entries)
    (hwatch : v.watch? c.number = some w) (hassignment : w.assignment = c.assignment)
    (hfree : v.shared.isCancelled w.token = false) :
    let l := Loop.standing w (v.points c.number)
    let entries' := (l.deeds v.shared).map (c.entry v.shared.now) ++ entries
    (∃ k', k' ≤ k - 1 ∧
        c.Stage prompt (v.step (.go c.number)) (l.step v.shared).1.watch k' entries') ∨
      c.Done prompt False entries' ∧ (v.step (.go c.number)).AtRest c.number := by
  have hgoes := goes_of_free hwatch hfree
  obtain ⟨hwatch', hpoint', htold⟩ := And.intro hgoes.watch (And.intro hgoes.point hgoes.told)
  have hkept (point : Option Point) : (Loop.standing w point).watch.assignment = c.assignment :=
    (standing_keeps w point).2.1.trans hassignment
  dsimp only at hwatch' hpoint' htold ⊢
  cases h with
  | missed hpoint hmisses hnow =>
      rw [hpoint] at hpoint' htold ⊢
      obtain ⟨deeds, hdeeds, hseeks⟩ := Loop.look_seeks (standing_point w (some .missed)) v.shared
      rw [hdeeds, List.map_append, List.append_nil]
      exact .inl (stage_of_seeks hseeks (hkept _) hmisses
        (fun hprompt => inTime_of_asked (hnow hprompt) _) hpoint' htold.now)
  | looking asked answer hpoint hphase hmisses hprompt =>
      rw [hpoint] at hpoint' htold ⊢
      rw [← hassignment] at hphase
      exact .inl (stage_of_seeks (Loop.looking_seeks hphase v.shared) hassignment hmisses hprompt
        hpoint' htold.now)
  | waits asked answer hpoint hwaits hmisses hprompt =>
      rw [hpoint] at hpoint' htold ⊢
      obtain ⟨hphase, hcomes, hlimit⟩ := hwaits
      rw [← hassignment] at hphase hlimit
      obtain ⟨hdeeds, hloop⟩ :=
        seeks_of_early (Loop.looking_seeks hphase v.shared) hcomes hlimit
      rw [← htold.now] at hcomes hlimit hprompt
      have hsame : Loop.standing w none = .ofWatch w := rfl
      rw [hsame, hloop] at hpoint'
      rw [hsame, hdeeds, hloop]
      refine .inl ⟨0, Nat.zero_le _, .waits asked answer hpoint' ⟨?_, hcomes, ?_⟩ hmisses hprompt⟩
      · exact congrArg (fun a => Phase.looking (.begun answer asked a.limit)) hassignment
      · rwa [hassignment] at hlimit
  | found entries addresses ended hpoint hfinds hnow =>
      rw [hpoint] at hwatch' hpoint' ⊢
      refine .inr ⟨?_, hpoint', fun w' hw' lookup hlooking => ?_⟩
      · exact .intro [] entries addresses ended v.shared.now hfinds hnow
          (fun h d hd => hnow h ▸ hfinds.limited h hd) (.inr rfl)
      · obtain rfl := Option.some.inj (hw'.symm.trans hwatch')
        cases hlooking

/-- A step of its own, as the journal has it. -/
theorem Stage.go {k : Nat} (h : c.Stage prompt v w k entries)
    (hwatch : v.watch? c.number = some w) (hassignment : w.assignment = c.assignment)
    (hfree : v.shared.isCancelled w.token = false) :
    ∃ w' fresh, (v.step (.go c.number)).watch? c.number = some w' ∧
      w'.assignment = c.assignment ∧ w'.token = w.token ∧
      (v.step (.go c.number)).shared.isCancelled w'.token = false ∧
      (v.step (.go c.number)).journal.of c.number = fresh ++ v.journal.of c.number ∧
      ((∃ k', k' ≤ k - 1 ∧ c.Stage prompt (v.step (.go c.number)) w' k' (fresh ++ entries)) ∨
        c.Done prompt False (fresh ++ entries) ∧ (v.step (.go c.number)).AtRest c.number) := by
  obtain ⟨hwatch', -, hassignment', htoken, hfree', hjournal, -⟩ := goes_of_free hwatch hfree
  rw [hassignment] at hjournal
  exact ⟨_, _, hwatch', hassignment'.trans hassignment, htoken, htoken ▸ hfree', hjournal,
    h.act hwatch hassignment hfree⟩

/-- While others go on, a cycle may only come to the end of its wait. -/
theorem Stage.others {k : Nat} (h : c.Stage prompt v w k entries) (hsound : v.Sound)
    (hwatch : v.watch? c.number = some w) {o : Occurrence} (ho : o ≠ .go c.number)
    (hminds : prompt → v.minds c.number o = true) {w' : Watch}
    (hwatch' : (v.step o).watch? c.number = some w') :
    ∃ k', c.Stage prompt (v.step o) w' k' entries := by
  obtain ⟨hstays, -, hphase'⟩ := others_step hsound hwatch ho
  have hnow {point : Point} (hpoint : v.points c.number = some point) (hprompt : prompt) :
      (v.step o).shared.now = v.shared.now := by
    refine (now_of_minds hsound (hminds hprompt)).resolve_right fun hidles => ?_
    rw [idles_of_point hwatch hpoint] at hidles
    cases hidles.1
  have hlooking {asked : Nat} {answer : LookupAnswer} (hpoint : v.points c.number = none)
      (hphase : w.phase = .looking (.begun answer asked c.assignment.limit)) (hmisses : c.Misses)
      (hprompt : prompt → c.InTime asked answer v.shared.now) :
      ∃ k', c.Stage prompt (v.step o) w' k' [c.entry asked (.asks answer)] := by
    have hkept : w'.phase = w.phase := hphase' w' hwatch' (by simp [hphase])
    refine ⟨2, .looking asked answer (hstays.trans hpoint) (hkept.trans hphase) hmisses ?_⟩
    intro h
    have hintime := hprompt h
    rcases now_of_minds hsound (hminds h) with hsame | ⟨-, htimers⟩
    · rw [hsame]
      exact hintime
    · -- both the answer and the deadline have a timer
      refine ⟨hintime.atOnce, fun due hdue => ?_, fun d hd => ?_⟩
      · exact htimers due (mem_timers hwatch hphase (.inl hdue))
      · refine htimers d (mem_timers hwatch hphase (.inr ?_))
        rw [deadline?, ← hintime.atOnce] at hd
        exact hd
  cases h with
  | missed hpoint hmisses hbegun =>
      exact ⟨2, .missed (hstays.trans hpoint) hmisses fun h => (hnow hpoint h).trans (hbegun h)⟩
  | looking asked answer hpoint hphase hmisses hprompt =>
      exact hlooking hpoint hphase hmisses hprompt
  | waits asked answer hpoint hwaits hmisses hprompt =>
      exact hlooking hpoint hwaits.phase hmisses hprompt
  | found entries addresses ended hpoint hfinds hended =>
      exact ⟨1, .found entries addresses ended (hstays.trans hpoint) hfinds
        fun h => (hnow hpoint h).trans (hended h)⟩

/-- What the cache has settles how a cycle goes on. -/
theorem stage_of_taken (prompt : Prop) {n : Nat} (hwatch : v.watch? n = some w)
    (htaken : v.points n = some .taken) (hfree : v.shared.isCancelled w.token = false) :
    let l := Loop.standing w (v.points n)
    ∃ k, (of v n w).Stage prompt (v.step (.go n)) (l.step v.shared).1.watch k
      ((l.deeds v.shared).map ((of v n w).entry v.shared.now)) := by
  intro l
  obtain ⟨-, hpoint', -, -, -, -, htold⟩ := goes_of_free hwatch hfree
  have hassignment : l.watch.assignment = w.assignment := (standing_keeps w _).2.1
  have hread := Loop.read_cases ((standing_point w _).trans htaken) v.shared
  rw [hassignment] at hread
  rcases hread with ⟨a, rest, hcached, hdeeds, hfound⟩ | ⟨hmisses, hdeeds, hmissed⟩
  · rw [hfound] at hpoint'
    rw [hdeeds]
    exact ⟨1, .found _ _ (of v n w).time hpoint' (.serves a rest hcached) fun _ => htold.now⟩
  · rw [hmissed] at hpoint'
    rw [hdeeds]
    exact ⟨2, .missed hpoint' hmisses fun _ => htold.now⟩

/-- The course of a cycle that has done something so far: it is done in the end, or at some
stage. -/
def Course (c : Onset) (prompt : Prop) (v : Chronicle) (later : List Occurrence)
    (entries : List Entry) : Prop :=
  let v' := Chronicle.run later v
  ∃ fresh, v'.journal.of c.number = fresh ++ v.journal.of c.number ∧
    (c.Done prompt (BeginsAgain c.number v later) (fresh ++ entries) ∨
      ∃ w k, v'.watch? c.number = some w ∧ c.Stage prompt v' w k (fresh ++ entries))

theorem Done.mono {again again' : Prop} (h : c.Done prompt again entries)
    (himp : again → again') : c.Done prompt again' entries := by
  obtain ⟨later, entries, addresses, ended, time, hfinds, htime, hlimited, honce⟩ := h
  exact .intro later entries addresses ended time hfinds htime hlimited (honce.imp_left himp)

theorem Course.cons {o : Occurrence} {later : List Occurrence} {fresh : List Entry}
    (h : c.Course prompt (v.step o) later (fresh ++ entries))
    (hjournal : (v.step o).journal.of c.number = fresh ++ v.journal.of c.number) :
    c.Course prompt v (o :: later) entries := by
  obtain ⟨fresh', hjournal', hends⟩ := h
  rw [hjournal, ← List.append_assoc] at hjournal'
  rw [← List.append_assoc] at hends
  exact ⟨_, hjournal', hends.imp_left fun hdone => hdone.mono BeginsAgain.cons⟩

/-- A cycle that is done stays so. -/
theorem Done.course (h : c.Done prompt False entries) (hsound : v.Sound)
    (hrests : v.AtRest c.number) (later : List Occurrence) : c.Course prompt v later entries := by
  obtain ⟨fresh, hfresh⟩ := journal_run hsound c.number later
  obtain ⟨between, entries, addresses, ended, time, hfinds, htime, hlimited, honce⟩ := h
  obtain rfl := honce.resolve_left id
  refine ⟨fresh, hfresh, .inl (.intro fresh entries addresses ended time hfinds htime hlimited ?_)⟩
  refine (rests_run hsound hrests later).imp_right fun hsame => ?_
  rw [hfresh] at hsame
  exact List.append_left_eq_self.mp hsame

/-- **Whatever happens, a cycle goes on in its stages,** until it is done. -/
theorem Stage.course {k : Nat} (h : c.Stage prompt v w k entries) (hsound : v.Sound)
    (hwatch : v.watch? c.number = some w) (hassignment : w.assignment = c.assignment)
    {later : List Occurrence}
    (hfree : (Chronicle.run later v).shared.isCancelled w.token = false)
    (hattends : prompt → attends c.number v later = true) : c.Course prompt v later entries := by
  -- the entries so far are generalised, as each step of the loop puts its own in front of them
  induction later generalizing v w k entries with
  | nil => exact ⟨[], rfl, .inr ⟨w, k, hwatch, h⟩⟩
  | cons o later ih =>
      have hsound' := sound_step hsound o
      have hnow : v.shared.isCancelled w.token = false := free_of_run hsound _ hfree
      have hboth (hprompt : prompt) : v.minds c.number o = true ∧
          attends c.number (v.step o) later = true := by
        simpa only [attends, Bool.and_eq_true] using hattends hprompt
      obtain ⟨w', hwatch', hassignment', htoken', -⟩ := watch_step hsound hwatch o
      rw [hassignment] at hassignment'
      rw [← htoken'] at hfree
      by_cases ho : o = .go c.number
      · subst ho
        obtain ⟨w1, fresh, hwatch1, -, -, -, hjournal, hends⟩ := h.go hwatch hassignment hnow
        obtain rfl := Option.some.inj (hwatch'.symm.trans hwatch1)
        rcases hends with ⟨k', -, hstage⟩ | ⟨hdone, hrests⟩
        · exact (ih hstage hsound' hwatch' hassignment' hfree fun h => (hboth h).2).cons hjournal
        · exact (hdone.course hsound' hrests later).cons hjournal
      · obtain ⟨k', hstage⟩ := h.others hsound hwatch ho (fun h => (hboth h).1) hwatch'
        have hcourse : c.Course prompt (v.step o) later ([] ++ entries) :=
          ih hstage hsound' hwatch' hassignment' hfree fun h => (hboth h).2
        have hjournal : (v.step o).journal.of c.number = [] ++ v.journal.of c.number :=
          (others_step hsound hwatch ho).2.1
        exact hcourse.cons hjournal

/-- Without another occurrence a cycle comes to its end, or to where it waits. -/
theorem Stage.exists_run {k : Nat} (h : c.Stage prompt v w k entries)
    (hwatch : v.watch? c.number = some w) (hassignment : w.assignment = c.assignment)
    (hfree : v.shared.isCancelled w.token = false) :
    ∃ count, count ≤ k ∧
      let v' := Chronicle.run (List.replicate count (.go c.number)) v
      ∃ w' fresh, v'.watch? c.number = some w' ∧
        v'.journal.of c.number = fresh ++ v.journal.of c.number ∧
        (c.Done prompt False (fresh ++ entries) ∨
          ∃ asked answer, c.Waits asked answer v'.shared.now w') := by
  -- a step leads to a later stage, which need not be the next one
  induction k using Nat.strongRecOn generalizing v w entries with
  | ind k ih =>
      rcases Nat.eq_zero_or_pos k with rfl | hk
      · cases h with
        | waits asked answer hpoint hwaits =>
            exact ⟨0, Nat.le_refl 0, w, [], hwatch, rfl, .inr ⟨asked, answer, hwaits⟩⟩
      · obtain ⟨w1, fresh, hwatch1, hassignment1, -, hfree1, hjournal, hends⟩ :=
          h.go hwatch hassignment hfree
        rcases hends with ⟨k', hk', hstage⟩ | ⟨hdone, -⟩
        · obtain ⟨count, hcount, w2, fresh', hwatch2, hjournal', hends'⟩ :=
            ih k' (by omega) hstage hwatch1 hassignment1 hfree1
          rw [hjournal, ← List.append_assoc] at hjournal'
          rw [← List.append_assoc] at hends'
          exact ⟨count + 1, by omega, w2, _, hwatch2, hjournal', hends'⟩
        · exact ⟨1, hk, w1, fresh, hwatch1, hjournal, .inl hdone⟩

/-! ## Where a cycle stands -/

/-- A cycle that has not published goes on. Its deadline has not gone by if the loop is prompt, and
after two steps of its own, at most, it is done, or waits for what is still to come. -/
structure Pends (c : Onset) (prompt : Prop) (v : Chronicle) (entries : List Entry) : Prop where
  unpublished : ∀ e ∈ entries, ∀ addresses, e.deed ≠ .publishes addresses
  limited : prompt → ∀ d, c.deadline? = some d → v.shared.now ≤ d
  goesOn : ∃ count, count ≤ 2 ∧
    let v' := Chronicle.run (List.replicate count (.go c.number)) v
    ∃ w fresh, v'.watch? c.number = some w ∧
      v'.journal.of c.number = fresh ++ v.journal.of c.number ∧
      (c.Done prompt False (fresh ++ entries) ∨
        ∃ asked answer, c.Waits asked answer v'.shared.now w)

theorem Finds.unpublished {addresses : List Address} {ended : Nat}
    (h : c.Finds prompt entries addresses ended) :
    ∀ e ∈ entries, ∀ addresses, e.deed ≠ .publishes addresses := by
  cases h <;> simp [entry]

theorem Stage.pends {k : Nat} (h : c.Stage prompt v w k entries)
    (hwatch : v.watch? c.number = some w) (hassignment : w.assignment = c.assignment)
    (hfree : v.shared.isCancelled w.token = false) : c.Pends prompt v entries := by
  have hasked (asked : Nat) (answer : LookupAnswer) :
      ∀ e ∈ [c.entry asked (.asks answer)], ∀ addresses, e.deed ≠ .publishes addresses := by
    simp [entry]
  have hk : k ≤ 2 := by cases h <;> decide
  obtain ⟨count, hcount, hgoesOn⟩ := h.exists_run hwatch hassignment hfree
  refine ⟨?_, ?_, count, Nat.le_trans hcount hk, hgoesOn⟩
  · cases h with
    | missed => simp
    | looking asked answer => exact hasked asked answer
    | waits asked answer => exact hasked asked answer
    | found entries addresses ended hpoint hfinds => exact hfinds.unpublished
  · intro hprompt d hd
    cases h with
    | missed hpoint hmisses hnow => exact hnow hprompt ▸ le_deadline hd
    | looking asked answer hpoint hphase hmisses hintime => exact (hintime hprompt).limited d hd
    | waits asked answer hpoint hwaits hmisses hintime => exact (hintime hprompt).limited d hd
    | found entries addresses ended hpoint hfinds hnow =>
        exact hnow hprompt ▸ hfinds.limited hprompt hd

/-- **A cycle that begins is done or pends,** at any later time. -/
theorem done_or_pends_of_taken (hsound : v.Sound) {n : Nat} (hwatch : v.watch? n = some w)
    (htaken : v.points n = some .taken) {later : List Occurrence}
    (hfree : (Chronicle.run later (v.step (.go n))).shared.isCancelled w.token = false)
    (hattends : prompt → attends n v (.go n :: later) = true) :
    let v' := Chronicle.run (.go n :: later) v
    ∃ since, v'.journal.of n = since ++ v.journal.of n ∧
      ((of v n w).Done prompt (BeginsAgain n v (.go n :: later)) since ∨
        (of v n w).Pends prompt v' since) := by
  have hsound' := sound_step hsound (.go n)
  have hnow : v.shared.isCancelled w.token = false :=
    free_of_run hsound (.go n :: later) hfree
  obtain ⟨k, hstage⟩ := stage_of_taken prompt hwatch htaken hnow
  obtain ⟨hwatch', -, hassignment', htoken', -, hjournal', -⟩ := goes_of_free hwatch hnow
  rw [← htoken'] at hfree
  have hcourse := hstage.course hsound' hwatch' hassignment' hfree
    fun h => ((Bool.and_eq_true ..).mp (hattends h)).2
  rw [← List.append_nil (List.map ..)] at hcourse
  obtain ⟨since, hjournal, hends⟩ := hcourse.cons hjournal'
  rw [List.append_nil] at hends
  refine ⟨since, hjournal, hends.imp_right ?_⟩
  rintro ⟨w'', k'', hwatch'', hstage''⟩
  obtain ⟨u, hu, hassignment'', htoken'', -⟩ := watch_run hsound' hwatch' later
  obtain rfl := Option.some.inj (hwatch''.symm.trans hu)
  exact hstage''.pends hwatch'' (hassignment''.trans hassignment') (htoken'' ▸ hfree)

/-- The timer of a limit fires at the first whole millisecond that is not before the limit. -/
theorem deadline_first (c : Onset) (h : c.assignment.limit.secs < 1 <<< 63) :
    ∃ ms, c.deadline? = some (Clock.ofMillis ms) ∧
      Clock.after c.time c.assignment.limit ≤ Clock.ofMillis ms ∧
      Clock.ofMillis ms < Clock.after c.time c.assignment.limit + 1_000_000 ∧
      ∀ ms' < ms, Clock.ofMillis ms' < Clock.after c.time c.assignment.limit := by
  obtain ⟨ms, hms⟩ : ∃ ms, Clock.ofMillis ms = Clock.timer c.time c.assignment.limit := ⟨_, rfl⟩
  refine ⟨ms, hms ▸ if_pos h, hms ▸ Clock.le_tick _, hms ▸ Clock.tick_lt _, fun ms' hms' => ?_⟩
  have hlow : Clock.ofMillis ms' < Clock.ofMillis ms := Nat.mul_lt_mul_of_pos_right hms' (by decide)
  rw [hms] at hlow
  exact Nat.lt_of_not_le fun hle => Nat.not_lt_of_le (Clock.tick_le_of_le_ofMillis hle) hlow

/-- A limit that leads to no instant has no timer. -/
theorem deadline_none (c : Onset) (h : 1 <<< 63 ≤ c.assignment.limit.secs) :
    c.deadline? = none :=
  if_neg (Nat.not_lt_of_le h)

end Onset

namespace Chronicle

/-- **One resolution cycle.** Take a watch that is about to look into the cache, at any time. As
long as it is not cancelled, whatever else happens and wherever it comes in between:

* Until the watch begins again, it publishes one set and does nothing behind that; or it has not
  published and the cycle pends. The set is what the cache has under the key, if those are
  addresses, and then no backend is asked. Otherwise one lookup is begun. Its valid addresses in
  their order are stored and published; the set is empty, and nothing is stored, if the lookup fails
  or is given up. A prompt watch publishes at the instant at which the answer comes, if that is not
  behind the deadline, and else at the deadline.
* Each of its steps does to others what its deeds say, and changes no other key of the cache. When
  it has published, it takes the next request.
* The deadline is the first whole millisecond that is not before the limit: the limit itself, if
  that is a whole millisecond, and less than a millisecond behind it otherwise. Only a limit beyond
  the reach of instants has none. -/
theorem one_cycle (directory : Directory) (before later : List Occurrence) {n : Nat} {w : Watch}
    (hwatch : (run before (start directory)).watch? n = some w)
    (htaken : (run before (start directory)).points n = some .taken)
    (hfree : (run (before ++ .go n :: later) (start directory)).shared.isCancelled w.token =
      false) :
    let v := run before (start directory)
    let v' := run (.go n :: later) v
    let c := Onset.of v n w
    let prompt := attends n v (.go n :: later) = true
    let again := BeginsAgain n v (.go n :: later)
    (∃ since, v'.journal.of n = since ++ v.journal.of n ∧
      (c.Done prompt again since ∨ c.Pends prompt v' since)) ∧
    (∀ first rest, .go n :: later = first ++ .go n :: rest →
      let u := run first v
      (∃ deeds, u.Reports n w.assignment w.box deeds) ∧
      ∀ addresses, u.points n = some (.found addresses) →
        (u.step (.go n)).points n = none ∧
        (run [.request n, .go n] (u.step (.go n))).points n = some .taken) ∧
    (w.assignment.limit.secs < 1 <<< 63 →
      ∃ ms, c.deadline? = some (Clock.ofMillis ms) ∧
        Clock.after c.time w.assignment.limit ≤ Clock.ofMillis ms ∧
        Clock.ofMillis ms < Clock.after c.time w.assignment.limit + 1_000_000 ∧
        ∀ ms' < ms, Clock.ofMillis ms' < Clock.after c.time w.assignment.limit) ∧
    (1 <<< 63 ≤ w.assignment.limit.secs → c.deadline? = none) := by
  intro v v' c prompt again
  have hsound : v.Sound := sound_run (sound_start directory) before
  rw [run_append] at hfree
  refine ⟨?_, fun first rest hsplit => ?_, c.deadline_first, c.deadline_none⟩
  · exact Onset.done_or_pends_of_taken hsound hwatch htaken hfree id
  · intro u
    obtain ⟨w1, hwatch1, hassignment1, htoken1, hbox1⟩ := watch_run hsound hwatch first
    rw [hsplit, run_append, ← htoken1] at hfree
    have hnow1 : u.shared.isCancelled w1.token = false :=
      free_of_run (sound_run hsound first) _ hfree
    refine ⟨?_, fun addresses hfound => taken_after_found hwatch1 hfound hnow1⟩
    rw [← hassignment1, ← hbox1]
    exact reports_of_free hwatch1 hnow1

/-- The entry in the cache has no addresses, so the host is looked up. Meanwhile the cache is
cleared, and someone else stores something under another key. The answer comes at the very instant
of the deadline. -/
theorem one_cycle_answered :
    let v := run [.watch .usual ⟨"dns", none, "svc:80", "svc", "80"⟩, .put "svc:80" [], .go 0]
      (start ⟨[("svc", [⟨.ofSecs 5, .ips ["10.0.0.1", "nonsense"]⟩])]⟩)
    let later : List Occurrence :=
      [.go 0, .clear, .put "other:80" [], .pass 5_000_000_000, .go 0, .go 0]
    let v' := run (.go 0 :: later) v
    let c : Onset := ⟨0, ⟨"svc:80", "svc", "80", .standard, .ofSecs 5⟩, 0, some []⟩
    let prompt := attends 0 v (.go 0 :: later) = true
    let again := BeginsAgain 0 v (.go 0 :: later)
    prompt ∧ (∃ since, v'.journal.of 0 = since ++ v.journal.of 0 ∧
      (c.Done prompt again since ∨ c.Pends prompt v' since)) ∧
    v'.journal.publications 0 = [⟨5_000_000_000, [⟨"10.0.0.1:80"⟩]⟩] ∧
    v'.shared.cache.entries = [("other:80", []), ("svc:80", [⟨"10.0.0.1:80"⟩])] := by
  have hwatch : (run [.watch .usual ⟨"dns", none, "svc:80", "svc", "80"⟩, .put "svc:80" [], .go 0]
      (start ⟨[("svc", [⟨.ofSecs 5, .ips ["10.0.0.1", "nonsense"]⟩])]⟩)).watch? 0 =
      some ⟨0, ⟨"svc:80", "svc", "80", .standard, .ofSecs 5⟩, ⟨[0]⟩, 0, .idle, false⟩ := by
    decide +kernel
  intro v later v' c prompt again
  have hcycle := one_cycle _ _ later hwatch (by decide +kernel) (by decide +kernel)
  exact ⟨by decide +kernel, hcycle.1, by decide +kernel, by decide +kernel⟩

/-- A lookup that may take a nanosecond is not given up before the first whole millisecond. An
answer that comes then is heard, stored and published, later than the limit allows. -/
theorem limit_overrun :
    let limit : Duration := ⟨0, 1, by decide, by decide⟩
    let v := run [.watch ⟨limit, false, none⟩ ⟨"dns", none, "svc:80", "svc", "80"⟩, .go 0]
      (start ⟨[("svc", [⟨.ofMillis64 1, .ips ["10.0.0.1"]⟩])]⟩)
    let later : List Occurrence := [.go 0, .pass 1_000_000, .go 0, .go 0]
    let v' := run (.go 0 :: later) v
    v.points 0 = some .taken ∧ attends 0 v (.go 0 :: later) = true ∧
      v'.shared.tokens.cancelled = [] ∧
      v'.journal.publications 0 = [⟨1_000_000, [⟨"10.0.0.1:80"⟩]⟩] ∧
      v'.shared.cache.get? "svc:80" = some [⟨"10.0.0.1:80"⟩] ∧
      Clock.after v.shared.now limit < 1_000_000 := by
  decide +kernel

end Chronicle

end Dialer.Resolver
