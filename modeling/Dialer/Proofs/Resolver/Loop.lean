import Dialer.Resolver.Watch

/-!
# A watch in small steps

A turn of a watch goes from one place where it waits to the next (`Watch.proceed`). Requests and
the rest of the program may also come in the middle: behind the taking of a request, behind the
reading of the cache, and before the result is published. A `Loop` is a watch that may stand there
too, and `Loop.step` takes it to the next such point.

A turn is a number of steps (`exists_run_proceed`), so whatever holds of all interleavings of
steps holds of those of turns. What a step may do with the requests, the cycles and the outbox of a
watch is listed once (`Moves`).
-/

namespace Dialer.Resolver

/-- A point of a cycle where no turn ends. -/
inductive Point where
  /-- A request was taken, and the cache not read. -/
  | taken
  /-- The cache had nothing. -/
  | missed
  /-- The result is there, and not published. -/
  | found (addresses : List Address)
deriving DecidableEq

/-- A watch between two of its turns, or at a point of a cycle. Within a cycle it is past its
last wait, and a request is kept. -/
structure Loop where
  watch : Watch
  point : Option Point
  idle : point ≠ none → watch.phase = .idle

namespace Loop

/-- A watch between two turns. -/
def ofWatch (w : Watch) : Loop :=
  ⟨w, none, fun h => absurd rfl h⟩

def within (w : Watch) (point : Point) : Loop :=
  ⟨{ w with phase := .idle }, some point, fun _ => rfl⟩

@[simp] theorem watch_ofWatch (w : Watch) : (ofWatch w).watch = w := rfl

@[simp] theorem point_ofWatch (w : Watch) : (ofWatch w).point = none := rfl

@[simp] theorem watch_within (w : Watch) (point : Point) :
    (within w point).watch = { w with phase := .idle } := rfl

@[simp] theorem point_within (w : Watch) (point : Point) : (within w point).point = some point :=
  rfl

theorem point_eq_none {l : Loop} (hphase : l.watch.phase ≠ .idle) : l.point = none :=
  Decidable.byContradiction fun hpoint => hphase (l.idle hpoint)

def request (l : Loop) : Loop :=
  ⟨l.watch.request.1, l.point, fun hpoint => by simp [Watch.request, l.idle hpoint]⟩

def fail (l : Loop) (s : Shared) : Loop × Shared :=
  (.within l.watch (.found []), { s with metrics := s.metrics.tally .lookupFailures })

/-- A lookup ends with what it found. -/
def conclude (l : Loop) (s : Shared) : Finding → Loop × Shared
  | .ips entries =>
    let addresses := Watch.addressesOf l.watch.assignment.port entries
    let s := s.count .droppedAddresses (entries.length - addresses.length)
    let s := s.store l.watch.assignment.key addresses
    (.within l.watch (.found addresses),
      { s with metrics := s.metrics.tally (.resolutions .lookup) })
  | .fails _ => l.fail s
  | .hangs => (l, s)

def read (l : Loop) (s : Shared) : Loop × Shared :=
  match s.cache.get? l.watch.assignment.key with
  | some (a :: rest) =>
    (.within l.watch (.found (a :: rest)),
      { s with metrics := s.metrics.tally (.resolutions .cache) })
  | _ => (.within l.watch .missed, s)

/-- A lookup begins; it may be over at once. -/
def look (l : Loop) (s : Shared) : Loop × Shared :=
  let (answer, s) := s.ask l.watch.assignment.backend l.watch.assignment.host
  let answersAt := Watch.answerTime s answer
  let deadline := Clock.deadline? s.now l.watch.assignment.limit
  if answersAt = some s.now then l.conclude s answer.finding
  else if Watch.isPast s.now deadline then l.fail s
  else
    (.ofWatch { l.watch with phase := .looking ⟨answer.finding, answersAt, deadline⟩ },
      l.watch.alarm (l.watch.alarm s answersAt) deadline)

/-- One step of a loop whose token is not cancelled. -/
def step (l : Loop) (s : Shared) : Loop × Shared :=
  match l.point with
  | some .taken => l.read s
  | some .missed => l.look s
  | some (.found addresses) => (.ofWatch l.watch, s.publish l.watch.box addresses)
  | none =>
    match l.watch.phase with
    | .idle =>
      if l.watch.wanted then (.within { l.watch with wanted := false } .taken, s)
      else (.ofWatch { l.watch with phase := .parked }, s)
    | .called => (.within l.watch .taken, s)
    | .looking lookup =>
      if Watch.isPast s.now lookup.answersAt then l.conclude s lookup.finding
      else if Watch.isPast s.now lookup.deadline then l.fail s
      else (l, s)
    | .parked | .stopped => (l, s)

def run : Nat → Loop → Shared → Loop × Shared
  | 0, l, s => (l, s)
  | count + 1, l, s =>
    let (l, s) := l.step s
    l.run count s

theorem run_add (m n : Nat) (l : Loop) (s : Shared) :
    run (m + n) l s = run n (run m l s).1 (run m l s).2 := by
  induction m generalizing l s with
  | zero => rw [Nat.zero_add]; rfl
  | succ m ih =>
      rw [Nat.succ_add]
      exact ih (l.step s).1 (l.step s).2

/-! ## A turn is a number of steps -/

theorem step_found (w : Watch) (addresses : List Address) (s : Shared) :
    (within w (.found addresses)).step s =
      (ofWatch { w with phase := .idle }, s.publish w.box addresses) := rfl

theorem exists_run_fail (l : Loop) (s : Shared) :
    ∃ count, run count (l.fail s).1 (l.fail s).2 =
      (ofWatch (l.watch.fail s).1, (l.watch.fail s).2) :=
  ⟨1, step_found ..⟩

theorem exists_run_conclude (l : Loop) (s : Shared) {finding : Finding}
    (hends : finding ≠ .hangs) :
    ∃ count, run count (l.conclude s finding).1 (l.conclude s finding).2 =
      (ofWatch (l.watch.conclude s finding).1, (l.watch.conclude s finding).2) := by
  cases finding with
  | ips entries => exact ⟨1, step_found ..⟩
  | fails error => exact l.exists_run_fail s
  | hangs => exact absurd rfl hends

theorem answerTime_eq_none {s : Shared} {answer : LookupAnswer} (h : answer.finding = .hangs) :
    Watch.answerTime s answer = none := by
  simp [Watch.answerTime, h]

theorem exists_run_look (l : Loop) (s : Shared) :
    ∃ count, run count (l.look s).1 (l.look s).2 =
      (ofWatch (l.watch.look s).1, (l.watch.look s).2) := by
  unfold look Watch.look Watch.await
  generalize s.ask l.watch.assignment.backend l.watch.assignment.host = asked
  obtain ⟨answer, s⟩ := asked
  dsimp only
  split
  · rename_i hnow
    refine l.exists_run_conclude s fun hhangs => ?_
    rw [answerTime_eq_none hhangs] at hnow
    cases hnow
  · split
    · exact l.exists_run_fail s
    · exact ⟨0, rfl⟩

/-- A lookup that begins does not depend on what its watch did before. -/
theorem look_idle (w : Watch) (s : Shared) : { w with phase := .idle }.look s = w.look s := by
  unfold Watch.look Watch.await
  generalize s.ask w.assignment.backend w.assignment.host = asked
  obtain ⟨answer, s⟩ := asked
  dsimp only
  split
  · rename_i hnow
    cases hfinding : answer.finding with
    | ips entries => rfl
    | fails error => rfl
    | hangs =>
        rw [answerTime_eq_none hfinding] at hnow
        cases hnow
  · rfl

theorem exists_run_cycle (w : Watch) (s : Shared) :
    ∃ count, run count (within w .taken) s = (ofWatch (w.cycle s).1, (w.cycle s).2) := by
  have hmiss (hmissed : (within w .taken).read s = (within w .missed, s)) :
      ∃ count, run count (within w .taken) s = (ofWatch (w.look s).1, (w.look s).2) := by
    obtain ⟨count, hlook⟩ := (within w .missed).exists_run_look s
    refine ⟨2 + count, ?_⟩
    have htwo : run 2 (within w .taken) s = (within w .missed).look s := by
      show ((within w .taken).read s).1.step ((within w .taken).read s).2 = _
      rw [hmissed]
      rfl
    rw [run_add, htwo, hlook]
    exact congrArg (fun turn => (ofWatch turn.1, turn.2)) (look_idle w s)
  -- an entry without addresses is as good as none
  unfold Watch.cycle
  cases hcache : s.cache.get? w.assignment.key with
  | none => exact hmiss (by simp [read, within, hcache])
  | some stored =>
      cases stored with
      | nil => exact hmiss (by simp [read, within, hcache])
      | cons a rest =>
          have hfound : (within w .taken).read s = (within w (.found (a :: rest)),
              { s with metrics := s.metrics.tally (.resolutions .cache) }) := by
            simp [read, within, hcache]
          refine ⟨2, ?_⟩
          show run 1 ((within w .taken).read s).1 ((within w .taken).read s).2 = _
          rw [hfound]
          exact step_found ..

/-- **A turn of a watch whose token is not cancelled is a number of steps.** -/
theorem exists_run_proceed (w : Watch) (s : Shared) :
    ∃ count, run count (ofWatch w) s = (ofWatch (w.proceed s).1, (w.proceed s).2) := by
  have hstep {l' : Loop} {s' : Shared} {turn : Watch × Shared}
      (hfirst : (ofWatch w).step s = (l', s'))
      (hrest : ∃ count, run count l' s' = (ofWatch turn.1, turn.2)) :
      ∃ count, run count (ofWatch w) s = (ofWatch turn.1, turn.2) := by
    obtain ⟨count, hrest⟩ := hrest
    refine ⟨count + 1, ?_⟩
    rw [run, hfirst]
    exact hrest
  unfold Watch.proceed
  cases hphase : w.phase with
  | idle =>
      dsimp only
      by_cases hwanted : w.wanted = true
      · rw [if_pos hwanted]
        have htaken : (ofWatch w).step s =
            (within { w with phase := .idle, wanted := false } .taken, s) := by
          simp [step, ofWatch, within, hphase, hwanted]
        exact hstep htaken (exists_run_cycle _ s)
      · rw [if_neg hwanted]
        have hparked : (ofWatch w).step s = (ofWatch { w with phase := .parked }, s) := by
          simp [step, ofWatch, hphase, hwanted]
        exact hstep hparked ⟨0, rfl⟩
  | called =>
      have htaken : (ofWatch w).step s = (within w .taken, s) := by
        simp [step, ofWatch, hphase]
      exact hstep htaken (exists_run_cycle w s)
  | looking lookup =>
      have hlooking : (ofWatch w).step s =
          if Watch.isPast s.now lookup.answersAt then (ofWatch w).conclude s lookup.finding
          else if Watch.isPast s.now lookup.deadline then (ofWatch w).fail s
          else (ofWatch w, s) := by
        simp [step, ofWatch, hphase]
      dsimp only
      split
      · rename_i hanswered
        rw [if_pos hanswered] at hlooking
        -- an answer that never comes leaves everything as it is
        by_cases hhangs : lookup.finding = .hangs
        · rw [hhangs]
          exact ⟨0, rfl⟩
        · exact hstep hlooking ((ofWatch w).exists_run_conclude s hhangs)
      · rename_i hunanswered
        rw [if_neg hunanswered] at hlooking
        split
        · rename_i hlate
          rw [if_pos hlate] at hlooking
          exact hstep hlooking ((ofWatch w).exists_run_fail s)
        · exact ⟨0, rfl⟩
  | parked => exact ⟨0, rfl⟩
  | stopped => exact ⟨0, rfl⟩

/-! ## What a request does -/

/-- A request calls a parked loop, and is kept by any other. -/
theorem request_cases (l : Loop) :
    (l.watch.phase = .parked ∧ l.point = none ∧
      l.request = .ofWatch { l.watch with phase := .called }) ∨
    (l.watch.phase ≠ .parked ∧
      ∃ hidle, l.request = ⟨{ l.watch with wanted := true }, l.point, hidle⟩) := by
  by_cases hparked : l.watch.phase = .parked
  · have hnone : l.point = none := point_eq_none (by simp [hparked])
    refine .inl ⟨hparked, hnone, ?_⟩
    simp [request, Watch.request, ofWatch, hparked, hnone]
  · refine .inr ⟨hparked, l.idle, ?_⟩
    simp only [request, Watch.request]

theorem request_full (l : Loop) (hphase : l.watch.phase ≠ .parked)
    (hwanted : l.watch.wanted = true) : l.request = l := by
  rcases l.request_cases with ⟨hparked, -⟩ | ⟨-, hidle, hrequest⟩
  · exact absurd hparked hphase
  · rw [hrequest]
    obtain ⟨w, point, hbefore⟩ := l
    obtain ⟨number, assignment, token, box, phase, wanted⟩ := w
    cases hwanted
    rfl

/-! ## What a step does -/

/-- A lookup that is waited for and does not end has no instant at which it is answered. -/
def Plain (l : Loop) : Prop :=
  ∀ lookup, l.watch.phase = .looking lookup → lookup.finding = .hangs → lookup.answersAt = none

/-- Waiting for a lookup that is neither answered nor late. -/
def waits (l : Loop) (s : Shared) : Bool :=
  match l.watch.phase with
  | .looking lookup =>
    !Watch.isPast s.now lookup.answersAt && !Watch.isPast s.now lookup.deadline
  | _ => false

/-- A cycle has begun, and its result is not there. -/
def seeks (l : Loop) : Bool :=
  match l.point, l.watch.phase with
  | some .taken, _ | some .missed, _ | none, .looking _ => true
  | _, _ => false

/-- What is found and not published. -/
def unpublished (l : Loop) : List (List Address) :=
  match l.point with
  | some (.found addresses) => [addresses]
  | _ => []

/-- A cycle has begun, and has not ended. -/
def inCycle (l : Loop) : Bool :=
  l.point.isSome || l.seeks

/-- How many cycles are still to come if there is no other request. -/
def owed (l : Loop) : Nat :=
  (if l.watch.phase = .called then 1 else 0) + l.watch.wanted.toNat

def isActive (l : Loop) (s : Shared) : Bool :=
  l.watch.phase != .parked && l.watch.phase != .stopped && !l.waits s

/-- How many steps lead from a point to where no request is kept and the loop waits for one. -/
def distance (l : Loop) : Nat :=
  match l.point, l.watch.phase with
  | some .taken, _ => 5
  | some .missed, _ => 4
  | some (.found _), _ => 2
  | none, .called => 6
  | none, .looking _ => 3
  | none, .idle => 1
  | none, .parked | none, .stopped => 0

/-- How many steps the loop can do without another request. -/
def effort (l : Loop) : Nat :=
  -- a request that is kept costs a cycle: to take it, read, look up, find and publish
  l.distance + 5 * l.watch.wanted.toNat

theorem effort_le_eleven (l : Loop) : l.effort ≤ 11 := by
  have hwanted := l.watch.wanted.toNat_le
  have hdistance : l.distance ≤ 6 := by
    unfold distance
    split <;> omega
  unfold effort
  omega

theorem owed_of_inCycle (l : Loop) (hcycle : l.inCycle = true) :
    l.owed = l.watch.wanted.toNat := by
  -- a loop that is called is between two cycles
  have hphase : l.watch.phase ≠ .called := by
    intro hcalled
    have hpoint : l.point = none := point_eq_none (by simp [hcalled])
    simp [inCycle, seeks, hpoint, hcalled] at hcycle
  simp [owed, hphase]

/-- No outbox is touched, and no token. -/
structure Apart (s s' : Shared) : Prop where
  outboxes : s'.outboxes = s.outboxes
  tokens : s'.tokens = s.tokens

/-- All that a step may do. -/
inductive Moves (l : Loop) (s : Shared) : Loop → Shared → Prop
  | parks (hpoint : l.point = none) (hphase : l.watch.phase = .idle)
      (hwanted : l.watch.wanted = false) : Moves l s (.ofWatch { l.watch with phase := .parked }) s
  | takes (hpoint : l.point = none) (hphase : l.watch.phase = .idle)
      (hwanted : l.watch.wanted = true) :
      Moves l s (.within { l.watch with wanted := false } .taken) s
  | wakes (hpoint : l.point = none) (hphase : l.watch.phase = .called) :
      Moves l s (.within l.watch .taken) s
  | misses (hpoint : l.point = some .taken) : Moves l s (.within l.watch .missed) s
  | looks (hpoint : l.point = some .missed) (lookup : Pending)
      (hplain : lookup.finding = .hangs → lookup.answersAt = none) (s' : Shared)
      (hapart : Apart s s') : Moves l s (.ofWatch { l.watch with phase := .looking lookup }) s'
  | finds (hseeks : l.seeks = true) (addresses : List Address) (s' : Shared)
      (hapart : Apart s s') : Moves l s (.within l.watch (.found addresses)) s'
  | publishes (addresses : List Address) (hpoint : l.point = some (.found addresses)) :
      Moves l s (.ofWatch l.watch) (s.publish l.watch.box addresses)
  | stays (hpoint : l.point = none)
      (hrests : l.watch.phase = .parked ∨ l.watch.phase = .stopped ∨ l.waits s = true) :
      Moves l s l s

theorem conclude_moves {l : Loop} {s asked : Shared} (hseeks : l.seeks = true)
    (hasked : Apart s asked) {finding : Finding} (hends : finding ≠ .hangs) :
    Moves l s (l.conclude asked finding).1 (l.conclude asked finding).2 := by
  cases finding with
  | ips entries => exact .finds hseeks _ _ ⟨hasked.outboxes, hasked.tokens⟩
  | fails error => exact .finds hseeks _ _ ⟨hasked.outboxes, hasked.tokens⟩
  | hangs => exact absurd rfl hends

theorem apart_alarm (w : Watch) (s : Shared) (due : Option Nat) : Apart s (w.alarm s due) := by
  cases due with
  | none => exact ⟨rfl, rfl⟩
  | some t => exact ⟨rfl, rfl⟩

theorem phase_of_seeks {l : Loop} (hseeks : l.seeks = true) :
    l.watch.phase ≠ .called ∧ l.watch.phase ≠ .parked ∧ l.unpublished = [] ∧ 3 ≤ l.distance := by
  unfold seeks at hseeks
  unfold unpublished distance
  split at hseeks
  · rename_i hpoint
    simp [hpoint, l.idle (by simp [hpoint])]
  · rename_i hpoint
    simp [hpoint, l.idle (by simp [hpoint])]
  · rename_i hpoint hphase
    simp [hpoint, hphase]
  · cases hseeks

namespace Moves

variable {l l' : Loop} {s s' : Shared}

theorem keeps (h : Moves l s l' s') :
    l'.watch.box = l.watch.box ∧ l'.watch.token = l.watch.token ∧ s'.tokens = s.tokens := by
  cases h with
  | looks _ _ _ _ hapart => exact ⟨rfl, rfl, hapart.tokens⟩
  | finds _ _ _ hapart => exact ⟨rfl, rfl, hapart.tokens⟩
  | _ => exact ⟨rfl, rfl, rfl⟩

/-- What is owed becomes cycles. -/
theorem owed_eq (h : Moves l s l' s') :
    l'.owed + (if l'.point = some .taken then 1 else 0) = l.owed := by
  have hwithin {point : Point} (hpoint : l.point = some point) : l.watch.phase ≠ .called := by
    rw [l.idle (by simp [hpoint])]
    exact Phase.noConfusion
  cases h with
  | parks hpoint hphase => simp [owed, hphase]
  | takes hpoint hphase hwanted => simp [owed, hphase, hwanted]
  | wakes hpoint hphase => simp [owed, hphase, Nat.add_comm]
  | misses hpoint => simp [owed, hwithin hpoint]
  | looks hpoint => simp [owed, hwithin hpoint]
  | finds hseeks => simp [owed, (phase_of_seeks hseeks).1]
  | publishes addresses hpoint => simp [owed, hwithin hpoint]
  | stays hpoint => simp [hpoint]

/-- A cycle that has begun is one that seeks, or has found its result. -/
theorem seeks_eq (h : Moves l s l' s') :
    l'.seeks.toNat + l'.unpublished.length =
      l.seeks.toNat + if l'.point = some .taken then 1 else 0 := by
  cases h with
  | parks hpoint hphase => simp [seeks, unpublished, hpoint, hphase]
  | takes hpoint hphase hwanted => simp [seeks, unpublished, hpoint, hphase]
  | wakes hpoint hphase => simp [seeks, unpublished, hpoint, hphase]
  | misses hpoint => simp [seeks, unpublished, hpoint]
  | looks hpoint => simp [seeks, unpublished, hpoint]
  | finds hseeks =>
      rw [hseeks]
      simp [seeks, unpublished]
  | publishes addresses hpoint =>
      simp [seeks, unpublished, hpoint, l.idle (by simp [hpoint])]
  | stays hpoint => simp [unpublished, hpoint]

/-- The outbox gets what was found, and nothing else. -/
theorem published_eq (h : Moves l s l' s') (hbox : l.watch.box < s.outboxes.length) :
    l'.watch.box < s'.outboxes.length ∧
      (s'.box l.watch.box).published.map (·.addresses) =
        l.unpublished ++ (s.box l.watch.box).published.map (·.addresses) := by
  have hsame {after : Shared} (houtboxes : after.outboxes = s.outboxes)
      (hnothing : l.unpublished = []) :
      l.watch.box < after.outboxes.length ∧
        (after.box l.watch.box).published.map (·.addresses) =
          l.unpublished ++ (s.box l.watch.box).published.map (·.addresses) := by
    simp [Shared.box, houtboxes, hnothing, hbox]
  -- only one of the moves publishes, and only where it comes from a set is left to publish
  cases h with
  | parks hpoint hphase => exact hsame rfl (by simp [unpublished, hpoint])
  | takes hpoint hphase hwanted => exact hsame rfl (by simp [unpublished, hpoint])
  | wakes hpoint hphase => exact hsame rfl (by simp [unpublished, hpoint])
  | misses hpoint => exact hsame rfl (by simp [unpublished, hpoint])
  | looks hpoint _ _ _ hapart => exact hsame hapart.outboxes (by simp [unpublished, hpoint])
  | finds hseeks _ _ hapart =>
      exact hsame hapart.outboxes (phase_of_seeks hseeks).2.2.1
  | publishes addresses hpoint =>
      simp [Shared.publish, Shared.box, unpublished, hpoint, hbox, Outbox.publish]
  | stays hpoint => exact hsame rfl (by simp [unpublished, hpoint])

/-- Only a loop that keeps no request begins to wait for one. -/
theorem parked (h : Moves l s l' s') (hbefore : l.watch.phase = .parked → l.watch.wanted = false)
    (hparked : l'.watch.phase = .parked) : l'.watch.wanted = false := by
  cases h with
  | parks _ _ hwanted => exact hwanted
  | publishes addresses hpoint =>
      rw [Loop.watch_ofWatch, l.idle (by simp [hpoint])] at hparked
      cases hparked
  | stays => exact hbefore hparked
  | _ => cases hparked

theorem running (h : Moves l s l' s') (hrunning : l.watch.phase ≠ .stopped) :
    l'.watch.phase ≠ .stopped := by
  cases h with
  | publishes => exact hrunning
  | stays => exact hrunning
  | _ => exact Phase.noConfusion

theorem plain (h : Moves l s l' s') (hbefore : l.Plain) : l'.Plain := by
  cases h with
  | looks _ lookup hplain =>
      intro looking hlooking
      cases hlooking
      exact hplain
  | publishes => exact hbefore
  | stays => exact hbefore
  | _ => intro lookup hlooking; cases hlooking

/-- A loop that can go on by itself comes nearer to where it waits for a request. -/
theorem effort_le (h : Moves l s l' s') : l'.effort + (l.isActive s).toNat ≤ l.effort := by
  have hactive := (l.isActive s).toNat_le
  cases h with
  | parks hpoint hphase => simp [effort, distance, hpoint, hphase]; omega
  | takes hpoint hphase hwanted => simp [effort, distance, hpoint, hphase, hwanted]; omega
  | wakes hpoint hphase => simp [effort, distance, hpoint, hphase]; omega
  | misses hpoint => simp [effort, distance, hpoint]; omega
  | looks hpoint => simp [effort, distance, hpoint]; omega
  | finds hseeks =>
      have hdistance := (phase_of_seeks hseeks).2.2.2
      simp [effort, distance] at hdistance ⊢
      omega
  | publishes addresses hpoint =>
      simp [effort, distance, hpoint, l.idle (by simp [hpoint])]
      omega
  | stays hpoint hrests =>
      have hinactive : l.isActive s = false := by
        rcases hrests with hparked | hstopped | hwaits
        · simp [isActive, hparked]
        · simp [isActive, hstopped]
        · simp [isActive, hwaits]
      simp [hinactive]

end Moves

end Loop

end Dialer.Resolver
