import Dialer.Proofs.Resolver.Passage
import Dialer.Proofs.Resolver.Provenance
import Dialer.Proofs.Resolver.Silence

/-!
# A watch among others

What one watch does in a chronicle, and what others do to it meanwhile. It goes on in the steps of
its loop, and its deeds are all that it does to others (`Chronicle.Reports`). While others go on it
stays where it stands (`Chronicle.others_step`), and between two cycles it does nothing
(`Chronicle.rests_run`).

The one thing that others may take from it is time. A watch is prompt if time passes only while it
can do nothing but wait, and passes no timer by (`Chronicle.attends`).
-/

namespace Dialer

/-- The instant at which an answer is there that is asked for now, if ever. -/
def LookupAnswer.comesAt (answer : LookupAnswer) (now : Nat) : Option Nat :=
  match answer.finding with
  | .hangs => none
  | _ => some (if answer.duration.isZero then now else Clock.wake now answer.duration)

namespace Resolver

theorem Watch.answerTime_eq (s : Shared) (answer : LookupAnswer) :
    answerTime s answer = answer.comesAt s.now := rfl

/-- A lookup that was begun at an instant, under a limit. -/
def Pending.begun (answer : LookupAnswer) (asked : Nat) (limit : Duration) : Pending :=
  ⟨answer.finding, answer.comesAt asked, Clock.deadline? asked limit⟩

/-! ## Steps within a cycle -/

namespace Loop

/-- What becomes of a lookup by an instant. The answer is looked at before the deadline. -/
inductive Seeks (l : Loop) (asked : Nat) (answer : LookupAnswer) (now : Nat) :
    List Deed → Loop → Prop
  | hears (entries : List String) (due : Nat) (hfinding : answer.finding = .ips entries)
      (hdue : answer.comesAt asked = some due) (hcame : due ≤ now) :
      Seeks l asked answer now
        [.stores (Watch.addressesOf l.watch.assignment.port entries), .hears entries]
        (.within l.watch (.found (Watch.addressesOf l.watch.assignment.port entries)))
  | fails (error : LookupError) (due : Nat) (hfinding : answer.finding = .fails error)
      (hdue : answer.comesAt asked = some due) (hcame : due ≤ now) :
      Seeks l asked answer now [.fails] (.within l.watch (.found []))
  | givesUp (deadline : Nat)
      (hlimit : Clock.deadline? asked l.watch.assignment.limit = some deadline)
      (hover : deadline ≤ now) (hlate : ∀ due, answer.comesAt asked = some due → now < due) :
      Seeks l asked answer now [.fails] (.within l.watch (.found []))
  | waits (hcomes : ∀ due, answer.comesAt asked = some due → now < due)
      (hlimit : ∀ deadline,
        Clock.deadline? asked l.watch.assignment.limit = some deadline → now < deadline) :
      Seeks l asked answer now [] (.ofWatch { l.watch with
        phase := .looking (.begun answer asked l.watch.assignment.limit) })

variable {l : Loop} {s : Shared} {asked : Nat} {answer : LookupAnswer}

theorem seeks_of_answered {due : Nat} (hdue : answer.comesAt asked = some due)
    (hcame : due ≤ s.now) (after : Shared) :
    l.Seeks asked answer s.now (l.endings answer.finding)
      (l.conclude after answer.finding).1 := by
  cases hfinding : answer.finding with
  | ips entries => exact .hears entries due hfinding hdue hcame
  | fails error => exact .fails error due hfinding hdue hcame
  | hangs =>
      rw [LookupAnswer.comesAt, hfinding] at hdue
      cases hdue

/-- A lookup that is not answered yet goes on, or is given up. -/
theorem seeks_of_unanswered (hcomes : ∀ due, answer.comesAt asked = some due → s.now < due) :
    (Watch.isPast s.now (Clock.deadline? asked l.watch.assignment.limit) = true →
      l.Seeks asked answer s.now [.fails] (.within l.watch (.found []))) ∧
    (¬ Watch.isPast s.now (Clock.deadline? asked l.watch.assignment.limit) = true →
      l.Seeks asked answer s.now [] (.ofWatch { l.watch with
        phase := .looking (.begun answer asked l.watch.assignment.limit) })) := by
  constructor
  · intro hlate
    obtain ⟨deadline, hlimit, hover⟩ := Watch.isPast_iff.mp hlate
    exact .givesUp deadline hlimit hover hcomes
  · intro hearly
    simp only [Watch.isPast_iff, not_exists, not_and, Nat.not_le] at hearly
    exact .waits hcomes hearly

/-- An answer that is not there at once comes later. -/
theorem lt_comesAt (hunanswered : Watch.answerTime s answer ≠ some s.now) {due : Nat}
    (hdue : answer.comesAt s.now = some due) : s.now < due := by
  have hle := Watch.le_answerTime ((Watch.answerTime_eq s answer).trans hdue)
  have hne : due ≠ s.now := fun hsame => hunanswered (hdue.trans (congrArg some hsame))
  omega

/-- A lookup begins, and may be over at once. -/
theorem look_seeks (hpoint : l.point = some .missed) (s : Shared) :
    ∃ deeds, l.deeds s =
      deeds ++ [.asks (s.ask l.watch.assignment.backend l.watch.assignment.host).1] ∧
      l.Seeks s.now (s.ask l.watch.assignment.backend l.watch.assignment.host).1 s.now deeds
        (l.step s).1 := by
  have hforms := l.step_forms s
  generalize l.deeds s = deeds, l.step s = after at hforms ⊢
  cases hforms with
  | endsAtOnce _ answer asked hasked hatonce =>
      rw [hasked]
      exact ⟨_, rfl, seeks_of_answered hatonce (Nat.le_refl _) asked⟩
  | failsAtOnce _ answer asked hasked hunanswered hlate =>
      rw [hasked]
      exact ⟨_, rfl, (seeks_of_unanswered fun _ => lt_comesAt hunanswered).1 hlate⟩
  | asks _ answer asked hasked hunanswered hearly =>
      rw [hasked]
      exact ⟨_, rfl, (seeks_of_unanswered fun _ => lt_comesAt hunanswered).2 hearly⟩
  -- the other forms stand at other points
  | _ => simp_all

/-- A cycle begins with a look into the cache. -/
theorem read_cases (hpoint : l.point = some .taken) (s : Shared) :
    (∃ a rest, s.cache.get? l.watch.assignment.key = some (a :: rest) ∧
      l.deeds s = [.serves (a :: rest)] ∧ (l.step s).1 = .within l.watch (.found (a :: rest))) ∨
    ((s.cache.get? l.watch.assignment.key).getD [] = [] ∧
      l.deeds s = [] ∧ (l.step s).1 = .within l.watch .missed) := by
  have hforms := l.step_forms s
  generalize l.deeds s = deeds, l.step s = after at hforms ⊢
  cases hforms with
  | serves _ a rest hcache => exact .inl ⟨a, rest, hcache, rfl, rfl⟩
  | misses _ hcache => exact .inr ⟨hcache, rfl, rfl⟩
  -- the other forms stand at other points
  | _ => simp_all

/-- A lookup that is waited for goes on. -/
theorem looking_seeks {w : Watch}
    (hphase : w.phase = .looking (.begun answer asked w.assignment.limit)) (s : Shared) :
    (ofWatch w).Seeks asked answer s.now ((ofWatch w).deeds s) ((ofWatch w).step s).1 := by
  have hsame : w = { w with phase := .looking (.begun answer asked w.assignment.limit) } := by
    rw [← hphase]
  simp only [step, deeds, point_ofWatch, watch_ofWatch, hphase, Pending.begun]
  split
  · rename_i hpast
    obtain ⟨due, hdue, hcame⟩ := Watch.isPast_iff.mp hpast
    exact seeks_of_answered hdue hcame s
  · rename_i hcomes
    simp only [Watch.isPast_iff, not_exists, not_and, Nat.not_le] at hcomes
    obtain ⟨hgivesUp, hwaits⟩ := seeks_of_unanswered (l := ofWatch w) hcomes
    split
    · rename_i hlate
      exact hgivesUp hlate
    · rename_i hearly
      have hwaits := hwaits hearly
      rwa [watch_ofWatch, ← hsame] at hwaits

/-- A watch that waits for no lookup can only begin a cycle. -/
theorem acts_of_rest {w : Watch} {deeds : List Deed} {l : Loop}
    (h : (ofWatch w).Acts s deeds l) (hphase : ∀ lookup, w.phase ≠ .looking lookup) :
    deeds = [] ∧
      (l.point = some .taken ∨ l.point = none ∧ ∀ lookup, l.watch.phase ≠ .looking lookup) := by
  cases h with
  | parks => exact ⟨rfl, .inr ⟨rfl, fun _ => Phase.noConfusion⟩⟩
  | takes => exact ⟨rfl, .inl rfl⟩
  | stays => exact ⟨rfl, .inr ⟨rfl, hphase⟩⟩
  | hears _ lookup hlooking => exact absurd hlooking (hphase lookup)
  | fails _ lookup hlooking => exact absurd hlooking (hphase lookup)
  | serves hpoint => cases hpoint
  | misses hpoint => cases hpoint
  | asks hpoint => cases hpoint
  | hearsAtOnce hpoint => cases hpoint
  | failsAtOnce hpoint => cases hpoint
  | publishes _ hpoint => cases hpoint

theorem Acts.cache_eq {l' : Loop} {deeds : List Deed}
    (h : Acts l s deeds l') (key : String) (cache : AddressCache) :
    ((∀ addresses, .stores addresses ∉ deeds) ∧ deeds.foldr (·.cache key) cache = cache) ∨
      ∃ addresses, .stores addresses ∈ deeds ∧
        deeds.foldr (·.cache key) cache = cache.put key addresses := by
  cases h with
  | hearsAtOnce => exact .inr ⟨_, List.mem_cons_self, rfl⟩
  | hears => exact .inr ⟨_, List.mem_cons_self, rfl⟩
  | _ => exact .inl ⟨by simp, rfl⟩

/-- A lookup is answered by the backend that is asked. -/
theorem answer_of_asks (h : .asks answer ∈ l.deeds s) :
    answer = (s.ask l.watch.assignment.backend l.watch.assignment.host).1 := by
  have hendings (finding : Finding) : .asks answer ∉ l.endings finding := by
    cases finding <;> simp [endings]
  have hforms := l.step_forms s
  generalize l.deeds s = deeds, l.step s = after at hforms h
  cases hforms with
  | endsAtOnce _ other asked hasked =>
      rw [hasked]
      rcases List.mem_append.mp h with hends | hasks
      · exact absurd hends (hendings _)
      · simpa using hasks
  | failsAtOnce _ other asked hasked =>
      rw [hasked]
      simpa using h
  | asks _ other asked hasked =>
      rw [hasked]
      simpa using h
  | ends _ lookup => exact absurd h (hendings _)
  | _ => simp at h

end Loop

namespace Chronicle

variable {v : Chronicle} {n : Nat} {w : Watch}

/-! ## Time -/

/-- Can a watch do nothing but wait? -/
def idles (v : Chronicle) (n : Nat) : Bool :=
  (v.watch? n).any fun w => !(Loop.standing w (v.points n)).isActive v.shared

/-- Is a watch not kept waiting by an occurrence? -/
def minds (v : Chronicle) (n : Nat) : Occurrence → Bool
  | .pass _ => v.idles n
  | .jump _ => false
  | _ => true

/-- Is a watch never kept waiting? Then time passes only while it can do nothing but wait, and
passes no timer by. -/
def attends (n : Nat) : Chronicle → List Occurrence → Bool
  | _, [] => true
  | v, o :: later => v.minds n o && attends n (v.step o) later

theorem idles_of_point {point : Point} (hwatch : v.watch? n = some w)
    (hpoint : v.points n = some point) : v.idles n = false := by
  simp [idles, hwatch, hpoint, Loop.standing, Loop.isActive, Loop.waits]

theorem mem_timers {lookup : Pending} (hwatch : v.watch? n = some w)
    (hphase : w.phase = .looking lookup) {t : Nat}
    (ht : lookup.answersAt = some t ∨ lookup.deadline = some t) : t ∈ v.timers := by
  refine List.mem_append_right _ (List.mem_flatMap.mpr ⟨w, List.mem_of_getElem? hwatch, ?_⟩)
  rw [hphase]
  rcases ht with h | h
  · exact List.mem_append_left _ (Option.mem_toList.mpr h)
  · exact List.mem_append_right _ (Option.mem_toList.mpr h)

/-- Nothing but timing takes time. -/
theorem now_of_isTiming (hsound : v.Sound) {o : Occurrence} (ho : o.isTiming = false) :
    (v.step o).shared.now = v.shared.now := by
  have htakes := v.step_takes o hsound.within
  generalize v.step o = v' at htakes ⊢
  cases htakes with
  | acts m u deeds l shared ho hu hfree hacts htold => exact htold.now
  | alters => rfl
  | begins => rfl
  | aside _ haside =>
      refine (haside.clock.resolve_left fun htiming => ?_).1
      rw [ho] at htiming
      cases htiming

/-- A watch that is not kept waiting: time passes only while it idles, and passes no timer by. -/
theorem now_of_minds (hsound : v.Sound) {o : Occurrence} (hminds : v.minds n o = true) :
    (v.step o).shared.now = v.shared.now ∨
      v.idles n = true ∧ ∀ t ∈ v.timers, (v.step o).shared.now ≤ t := by
  cases o with
  | jump now => cases hminds
  | pass now =>
      simp only [step]
      split
      · rename_i hpasses
        exact .inr ⟨hminds, hpasses.2⟩
      · exact .inl rfl
  | sweep m => exact .inl (now_turn (.sweep m))
  | janitor every token =>
      refine .inl ?_
      have hstep : v.step (.janitor every token) =
          { v with exchange := (v.exchange.janitor? every token).getD v.exchange } := rfl
      rw [hstep]
      unfold Exchange.janitor?
      cases Rhythm.start? every v.exchange.now with
      | none => rfl
      | some rhythm => rfl
  | _ => exact .inl (now_of_isTiming hsound rfl)

/-! ## What others do -/

theorem isCancelled_step (hsound : v.Sound) (o : Occurrence) {t : Token}
    (h : v.shared.isCancelled t = true) : (v.step o).shared.isCancelled t = true := by
  have htakes := v.step_takes o hsound.within
  generalize v.step o = v' at htakes ⊢
  cases htakes with
  | acts m u deeds l shared ho hu hfree hacts htold =>
      rw [shared_carry, Shared.isCancelled, htold.tokens]
      exact h
  | alters => exact h
  | begins => exact h
  | aside _ haside => exact Cancellations.isCancelled_mono haside.cancelled h

/-- A token that is not cancelled in the end never was. -/
theorem free_of_run (hsound : v.Sound) (later : List Occurrence) {t : Token}
    (hfree : (run later v).shared.isCancelled t = false) : v.shared.isCancelled t = false := by
  by_contra hcancelled
  have hthen : (run later v).shared.isCancelled t = true :=
    run_keeps (P := fun v' => v'.shared.isCancelled t = true) (fun _ => True)
      (fun _ o hsound _ h => isCancelled_step hsound o h) hsound (fun _ _ => trivial)
      (by simpa using hcancelled)
  rw [hfree] at hthen
  cases hthen

/-- While others go on, a watch stays where it stands and does nothing. Only one that is parked may
be called. -/
theorem others_step (hsound : v.Sound) (hwatch : v.watch? n = some w) {o : Occurrence}
    (ho : o ≠ .go n) :
    (v.step o).points n = v.points n ∧ (v.step o).journal.of n = v.journal.of n ∧
      ∀ w', (v.step o).watch? n = some w' → w.phase ≠ .parked → w'.phase = w.phase := by
  have hsame {w' : Watch} (h : v.watch? n = some w') : w'.phase = w.phase := by
    obtain rfl := Option.some.inj (hwatch.symm.trans h)
    rfl
  have htakes := v.step_takes o hsound.within
  generalize v.step o = v' at htakes ⊢
  cases htakes with
  | acts m u deeds l shared hgo hu hfree hacts htold =>
      have hne : n ≠ m := fun h => ho (h ▸ hgo)
      refine ⟨Function.update_of_ne hne _ _, of_append_ne hne .., fun w' hw' _ => hsame ?_⟩
      exact (List.getElem?_set_ne hne.symm).symm.trans hw'
  | alters m u phase wanted agenda hu hwithin hlooking hstopped hagenda hphase =>
      refine ⟨rfl, rfl, fun w' hw' hparked => ?_⟩
      rcases mem_set hw' with ⟨rfl, rfl⟩ | ⟨-, hbefore⟩
      · obtain rfl := Option.some.inj (hwatch.symm.trans hu)
        rcases hphase with hkept | hcalled | ⟨hgo, -⟩
        · exact hkept
        · exact absurd hcalled hparked
        · exact absurd hgo ho
      · exact hsame hbefore
  | begins options target u agenda hbegins hassignment hnumber hbox htoken hphase hagenda =>
      refine ⟨rfl, rfl, fun w' hw' _ => hsame ?_⟩
      exact (List.getElem?_append_left (lt_of_watch? hwatch)).symm.trans hw'
  | aside _ haside =>
      refine ⟨by rw [haside.points], by rw [haside.journal], fun w' hw' _ => hsame ?_⟩
      rw [watch?, haside.watches] at hw'
      exact hw'

/-- A watch is between two cycles. -/
structure AtRest (v : Chronicle) (n : Nat) : Prop where
  point : v.points n = none
  phase : ∀ w, v.watch? n = some w → ∀ lookup, w.phase ≠ .looking lookup

/-- A watch that is between two cycles does nothing until it has begun another. -/
theorem rests_step (hsound : v.Sound) (h : v.AtRest n) (o : Occurrence) :
    (v.step o).journal.of n = v.journal.of n ∧
      ((v.step o).points n = some .taken ∨ (v.step o).AtRest n) := by
  obtain ⟨hpoint, hphase⟩ := h
  have htakes := v.step_takes o hsound.within
  generalize v.step o = v' at htakes ⊢
  cases htakes with
  | acts m u deeds l shared hgo hu hfree hacts htold =>
      by_cases hne : n = m
      · subst hne
        have hself : (v.carry n u.assignment deeds l shared).points n = l.point :=
          Function.update_self ..
        have hleft {w : Watch} (hw : (v.carry n u.assignment deeds l shared).watch? n = some w) :
            w = l.watch :=
          Option.some.inj (hw.symm.trans (List.getElem?_set_self (lt_of_watch? hu)))
        rw [hpoint] at hacts
        obtain ⟨rfl, hends⟩ := Loop.acts_of_rest hacts (hphase u hu)
        refine ⟨of_append_self .., ?_⟩
        rcases hends with htaken | ⟨hnone, hidle⟩
        · exact .inl (hself.trans htaken)
        · exact .inr ⟨hself.trans hnone, fun w' hw' => hleft hw' ▸ hidle⟩
      · refine ⟨of_append_ne hne .., .inr ⟨?_, fun w' hw' => hphase w' ?_⟩⟩
        · exact (Function.update_of_ne hne _ _).trans hpoint
        · exact (List.getElem?_set_ne (Ne.symm hne)).symm.trans hw'
  | alters m u phase wanted agenda hu hwithin hlooking hstopped hagenda hphase' =>
      refine ⟨rfl, .inr ⟨hpoint, fun w' hw' lookup hthen => ?_⟩⟩
      rcases mem_set hw' with ⟨rfl, rfl⟩ | ⟨-, hbefore⟩
      · exact hphase u hu lookup (hlooking lookup hthen)
      · exact hphase w' hbefore lookup hthen
  | begins options target u agenda hbegins hassignment hnumber hbox htoken hidle hagenda =>
      refine ⟨rfl, .inr ⟨hpoint, fun w' hw' lookup hthen => ?_⟩⟩
      rcases mem_append hw' with hold | ⟨-, rfl⟩
      · exact hphase w' hold lookup hthen
      · rw [hidle] at hthen
        cases hthen
  | aside _ haside =>
      refine ⟨by rw [haside.journal], .inr ⟨by rw [haside.points, hpoint], fun w' hw' => ?_⟩⟩
      rw [watch?, haside.watches] at hw'
      exact hphase w' hw'

/-- A watch begins another cycle meanwhile. -/
def BeginsAgain (n : Nat) (v : Chronicle) (occurrences : List Occurrence) : Prop :=
  ∃ first rest, occurrences = first ++ rest ∧ first ≠ [] ∧ (run first v).points n = some .taken

theorem BeginsAgain.cons {o : Occurrence} {later : List Occurrence}
    (h : BeginsAgain n (v.step o) later) : BeginsAgain n v (o :: later) := by
  obtain ⟨first, rest, rfl, -, htaken⟩ := h
  exact ⟨o :: first, rest, rfl, List.cons_ne_nil _ _, htaken⟩

theorem rests_run (hsound : v.Sound) (h : v.AtRest n) (later : List Occurrence) :
    BeginsAgain n v later ∨ (run later v).journal.of n = v.journal.of n := by
  induction later generalizing v with
  | nil => exact .inr rfl
  | cons o later ih =>
      obtain ⟨hjournal, htaken | hrests⟩ := rests_step hsound h o
      · exact .inl ⟨[o], later, rfl, List.cons_ne_nil _ _, htaken⟩
      · refine (ih (sound_step hsound o) hrests).imp BeginsAgain.cons fun hsame => ?_
        exact hsame.trans hjournal

/-- A journal only grows. -/
theorem journal_run (hsound : v.Sound) (n : Nat) (later : List Occurrence) :
    ∃ fresh, (run later v).journal.of n = fresh ++ v.journal.of n := by
  refine run_keeps (P := fun v' => ∃ fresh, v'.journal.of n = fresh ++ v.journal.of n)
    (fun _ => True) ?_ hsound (fun _ _ => trivial) ⟨[], rfl⟩
  rintro v' o hsound' - ⟨fresh, hfresh⟩
  have htakes := v'.step_takes o hsound'.within
  generalize v'.step o = v'' at htakes ⊢
  cases htakes with
  | acts m u deeds l shared =>
      by_cases hne : n = m
      · subst hne
        refine ⟨deeds.map (⟨n, u.assignment, v'.shared.now, ·⟩) ++ fresh, ?_⟩
        rw [List.append_assoc, ← hfresh]
        exact of_append_self ..
      · exact ⟨fresh, (of_append_ne hne ..).trans hfresh⟩
  | alters => exact ⟨fresh, hfresh⟩
  | begins => exact ⟨fresh, hfresh⟩
  | aside _ haside => exact ⟨fresh, haside.journal ▸ hfresh⟩

/-! ## What it does itself -/

/-- A watch that goes on does deeds, which leave it in a loop. -/
structure Goes (v : Chronicle) (n : Nat) (w : Watch) (deeds : List Deed) (l : Loop) : Prop where
  watch : (v.step (.go n)).watch? n = some l.watch
  point : (v.step (.go n)).points n = l.point
  assignment : l.watch.assignment = w.assignment
  token : l.watch.token = w.token
  free : (v.step (.go n)).shared.isCancelled w.token = false
  journal : (v.step (.go n)).journal.of n =
    deeds.map (⟨n, w.assignment, v.shared.now, ·⟩) ++ v.journal.of n
  told : Told w.assignment w.box deeds v.shared (v.step (.go n)).shared

theorem goes_of_free (hwatch : v.watch? n = some w)
    (hfree : v.shared.isCancelled w.token = false) :
    let l := Loop.standing w (v.points n)
    Goes v n w (l.deeds v.shared) (l.step v.shared).1 := by
  intro l
  have hgo : v.step (.go n) = v.carry n w.assignment (l.deeds v.shared) (l.step v.shared).1
      (l.step v.shared).2 := go_of_free hwatch hfree
  obtain ⟨-, hassignment, htoken, hbox⟩ := standing_keeps w (v.points n)
  obtain ⟨-, hassignment', htoken', -⟩ := (l.step_acts v.shared).keeps
  have htold := l.step_told v.shared
  rw [hassignment, hbox] at htold
  refine ⟨?_, ?_, hassignment'.trans hassignment, htoken'.trans htoken, ?_, ?_, ?_⟩ <;> rw [hgo]
  · exact List.getElem?_set_self (lt_of_watch? hwatch)
  · exact Function.update_self ..
  · rw [shared_carry, Shared.isCancelled, htold.tokens]
    exact hfree
  · exact of_append_self ..
  · exact htold

/-- A watch goes on and does deeds, and they are all that it does to others: it begins the lookups
that it asks for, and publishes what it publishes into its outbox. Of the cache it changes the entry
under its key, and that only if it stores addresses. -/
structure Reports (v : Chronicle) (n : Nat) (a : Assignment) (box : Nat) (deeds : List Deed) :
    Prop where
  journal : (v.step (.go n)).journal.of n =
    deeds.map (⟨n, a, v.shared.now, ·⟩) ++ v.journal.of n
  told : Told a box deeds v.shared (v.step (.go n)).shared
  answered : ∀ answer, .asks answer ∈ deeds → answer = (v.shared.ask a.backend a.host).1
  cached : ((∀ addresses, .stores addresses ∉ deeds) ∧
      (v.step (.go n)).shared.cache = v.shared.cache) ∨
    ∃ addresses, .stores addresses ∈ deeds ∧ ∀ key,
      (v.step (.go n)).shared.cache.get? key =
        if key = a.key then some addresses else v.shared.cache.get? key

theorem reports_of_free (hwatch : v.watch? n = some w)
    (hfree : v.shared.isCancelled w.token = false) :
    ∃ deeds, v.Reports n w.assignment w.box deeds := by
  obtain ⟨-, -, -, -, -, hjournal, htold⟩ := goes_of_free hwatch hfree
  obtain ⟨-, hassignment, -, -⟩ := standing_keeps w (v.points n)
  refine ⟨_, hjournal, htold, fun answer hasks => ?_, ?_⟩
  · rw [← hassignment]
    exact Loop.answer_of_asks hasks
  · rw [htold.cache]
    rcases (Loop.step_acts (.standing w (v.points n)) v.shared).cache_eq w.assignment.key
      v.shared.cache with hnothing | ⟨addresses, hstores, hput⟩
    · exact .inl hnothing
    · refine .inr ⟨addresses, hstores, fun key => ?_⟩
      rw [hput, AddressCache.get?_put]

/-- A loop that has published takes the next request. -/
theorem taken_after_found {addresses : List Address} (hwatch : v.watch? n = some w)
    (hfound : v.points n = some (.found addresses))
    (hfree : v.shared.isCancelled w.token = false) :
    (v.step (.go n)).points n = none ∧
      (run [.request n, .go n] (v.step (.go n))).points n = some .taken := by
  obtain ⟨hwatch', hpoint', -, -, hfree', -, -⟩ := goes_of_free hwatch hfree
  rw [hfound] at hwatch' hpoint'
  have hwatch' : (v.step (.go n)).watch? n = some { w with phase := .idle } := hwatch'
  have hpoint' : (v.step (.go n)).points n = none := hpoint'
  have hkept := request_kept hwatch' Phase.noConfusion
  have hnext : ((v.step (.go n)).step (.request n)).watch? n =
      some { w with phase := .idle, wanted := true } := by
    rw [hkept]
    exact List.getElem?_set_self (lt_of_watch? hwatch')
  have hbetween : ((v.step (.go n)).step (.request n)).points n = none := by
    rw [hkept]
    exact hpoint'
  have hfree'' : ((v.step (.go n)).step (.request n)).shared.isCancelled w.token = false := by
    rw [hkept]
    exact hfree'
  obtain ⟨-, htaken, -⟩ := goes_of_free hnext hfree''
  rw [hbetween] at htaken
  exact ⟨hpoint', htaken⟩

end Chronicle

end Resolver

end Dialer
