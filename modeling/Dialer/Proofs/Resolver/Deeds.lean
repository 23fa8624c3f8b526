import Dialer.Proofs.Agenda
import Dialer.Proofs.Resolver.Loop

/-!
# What a loop does to others

A loop changes what it shares with others in few ways: it looks a host up, puts addresses into the
cache, and publishes. `Loop.deeds` names what its next step does, and `Loop.step_told` says that
nothing else is done: the deeds tell how the step leaves the cache, the lookups and the outboxes.
What a step can be is said once, with the guards of its cases (`Loop.Forms`); what it does with the
loop itself and what it counts are read off there.

Deeds with their time and their doer are the entries of a journal, the latest first.
-/

namespace Dialer.Resolver

/-- What a watch does outside itself. -/
inductive Deed where
  /-- It begins a lookup, which is to be answered so. -/
  | asks (answer : LookupAnswer)
  /-- It is given the entries of an answer in time. -/
  | hears (entries : List String)
  /-- It is told that its lookup failed, or gives it up. -/
  | fails
  | stores (addresses : List Address)
  /-- It finds addresses in the cache. -/
  | serves (addresses : List Address)
  | publishes (addresses : List Address)
deriving DecidableEq

namespace Deed

def lookup? (a : Assignment) (now : Nat) : Deed → Option LookupRecord
  | .asks _ => some ⟨a.backend, a.host, now⟩
  | _ => none

def publication? (now : Nat) : Deed → Option Publication
  | .publishes addresses => some ⟨now, addresses⟩
  | _ => none

/-- The cache after a deed that is done for a key. -/
def cache (key : String) : Deed → AddressCache → AddressCache
  | .stores addresses, c => c.put key addresses
  | _, c => c

end Deed

/-- Deeds done for an assignment by a watch with an outbox lead from one state to another. -/
structure Told (a : Assignment) (box : Nat) (deeds : List Deed) (s s' : Shared) : Prop where
  now : s'.now = s.now
  tokens : s'.tokens = s.tokens
  cache : s'.cache = deeds.foldr (·.cache a.key) s.cache
  lookups : s'.lookups = deeds.filterMap (·.lookup? a s.now) ++ s.lookups
  outboxes : s'.outboxes = s.outboxes.modify box fun o =>
    ⟨deeds.filterMap (·.publication? s.now) ++ o.published⟩
  agenda : s.agenda.Grows s'.agenda

namespace Loop

/-- The loop of a watch at a point. -/
def standing (w : Watch) : Option Point → Loop
  | none => .ofWatch w
  | some point => .within w point

/-- What ends a lookup that is over. -/
def endings (l : Loop) : Finding → List Deed
  | .ips entries =>
    [.stores (Watch.addressesOf l.watch.assignment.port entries), .hears entries]
  | .fails _ => [.fails]
  | .hangs => []

/-- What the next step of a loop does, the latest first. -/
def deeds (l : Loop) (s : Shared) : List Deed :=
  match l.point with
  | some .taken =>
    match s.cache.get? l.watch.assignment.key with
    | some (a :: rest) => [.serves (a :: rest)]
    | _ => []
  | some .missed =>
    let answer := (s.ask l.watch.assignment.backend l.watch.assignment.host).1
    (if Watch.answerTime s answer = some s.now then l.endings answer.finding
      else if Watch.isPast s.now (Clock.deadline? s.now l.watch.assignment.limit) then [.fails]
      else []) ++ [.asks answer]
  | some (.found addresses) => [.publishes addresses]
  | none =>
    match l.watch.phase with
    | .looking lookup =>
      if Watch.isPast s.now lookup.answersAt then l.endings lookup.finding
      else if Watch.isPast s.now lookup.deadline then [.fails]
      else []
    | _ => []

/-- What a step can be, with what it depends on: its deeds, and where it leaves the loop and what is
shared. -/
inductive Forms (l : Loop) (s : Shared) : List Deed → Loop × Shared → Prop
  | parks (hpoint : l.point = none) (hphase : l.watch.phase = .idle)
      (hwanted : l.watch.wanted = false) :
      Forms l s [] (.ofWatch { l.watch with phase := .parked }, s)
  | takes (hpoint : l.point = none) (hphase : l.watch.phase = .idle)
      (hwanted : l.watch.wanted = true) :
      Forms l s [] (.within { l.watch with wanted := false } .taken, s)
  | wakes (hpoint : l.point = none) (hphase : l.watch.phase = .called) :
      Forms l s [] (.within l.watch .taken, s)
  | serves (hpoint : l.point = some .taken) (a : Address) (rest : List Address)
      (hcache : s.cache.get? l.watch.assignment.key = some (a :: rest)) :
      Forms l s [.serves (a :: rest)] (.within l.watch (.found (a :: rest)),
        { s with metrics := s.metrics.tally (.resolutions .cache) })
  | misses (hpoint : l.point = some .taken)
      (hcache : (s.cache.get? l.watch.assignment.key).getD [] = []) :
      Forms l s [] (.within l.watch .missed, s)
  | endsAtOnce (hpoint : l.point = some .missed) (answer : LookupAnswer) (asked : Shared)
      (hasked : s.ask l.watch.assignment.backend l.watch.assignment.host = (answer, asked))
      (hatonce : Watch.answerTime s answer = some s.now) :
      Forms l s (l.endings answer.finding ++ [.asks answer]) (l.conclude asked answer.finding)
  | failsAtOnce (hpoint : l.point = some .missed) (answer : LookupAnswer) (asked : Shared)
      (hasked : s.ask l.watch.assignment.backend l.watch.assignment.host = (answer, asked))
      (hunanswered : Watch.answerTime s answer ≠ some s.now)
      (hlate : Watch.isPast s.now (Clock.deadline? s.now l.watch.assignment.limit) = true) :
      Forms l s ([.fails] ++ [.asks answer]) (l.fail asked)
  | asks (hpoint : l.point = some .missed) (answer : LookupAnswer) (asked : Shared)
      (hasked : s.ask l.watch.assignment.backend l.watch.assignment.host = (answer, asked))
      (hunanswered : Watch.answerTime s answer ≠ some s.now)
      (hearly : ¬ Watch.isPast s.now (Clock.deadline? s.now l.watch.assignment.limit) = true) :
      Forms l s ([] ++ [.asks answer])
        (.ofWatch { l.watch with phase := .looking ⟨answer.finding, Watch.answerTime s answer,
            Clock.deadline? s.now l.watch.assignment.limit⟩ },
          l.watch.alarm (l.watch.alarm asked (Watch.answerTime s answer))
            (Clock.deadline? s.now l.watch.assignment.limit))
  | ends (hpoint : l.point = none) (lookup : Pending) (hphase : l.watch.phase = .looking lookup)
      (hanswered : Watch.isPast s.now lookup.answersAt = true) :
      Forms l s (l.endings lookup.finding) (l.conclude s lookup.finding)
  | fails (hpoint : l.point = none) (lookup : Pending) (hphase : l.watch.phase = .looking lookup)
      (hunanswered : ¬ Watch.isPast s.now lookup.answersAt = true)
      (hlate : Watch.isPast s.now lookup.deadline = true) : Forms l s [.fails] (l.fail s)
  | waits (hpoint : l.point = none) (lookup : Pending) (hphase : l.watch.phase = .looking lookup)
      (hunanswered : ¬ Watch.isPast s.now lookup.answersAt = true)
      (hearly : ¬ Watch.isPast s.now lookup.deadline = true) : Forms l s [] (l, s)
  | publishes (addresses : List Address) (hpoint : l.point = some (.found addresses)) :
      Forms l s [.publishes addresses] (.ofWatch l.watch, s.publish l.watch.box addresses)
  | rests (hpoint : l.point = none)
      (hphase : l.watch.phase = .parked ∨ l.watch.phase = .stopped) : Forms l s [] (l, s)

/-- Where a step leads, and what it does on the way. -/
inductive Acts (l : Loop) (s : Shared) : List Deed → Loop → Prop
  | parks (hpoint : l.point = none) : Acts l s [] (.ofWatch { l.watch with phase := .parked })
  | takes (hpoint : l.point = none) (wanted : Bool) :
      Acts l s [] (.within { l.watch with wanted } .taken)
  | serves (hpoint : l.point = some .taken) (a : Address) (rest : List Address)
      (hcache : s.cache.get? l.watch.assignment.key = some (a :: rest)) :
      Acts l s [.serves (a :: rest)] (.within l.watch (.found (a :: rest)))
  | misses (hpoint : l.point = some .taken) : Acts l s [] (.within l.watch .missed)
  | asks (hpoint : l.point = some .missed) (answer : LookupAnswer) (lookup : Pending)
      (hfinding : lookup.finding = answer.finding) :
      Acts l s [.asks answer] (.ofWatch { l.watch with phase := .looking lookup })
  | hearsAtOnce (hpoint : l.point = some .missed) (answer : LookupAnswer) (entries : List String)
      (hfinding : answer.finding = .ips entries) :
      Acts l s
        [.stores (Watch.addressesOf l.watch.assignment.port entries), .hears entries, .asks answer]
        (.within l.watch (.found (Watch.addressesOf l.watch.assignment.port entries)))
  | failsAtOnce (hpoint : l.point = some .missed) (answer : LookupAnswer) :
      Acts l s [.fails, .asks answer] (.within l.watch (.found []))
  | hears (hpoint : l.point = none) (lookup : Pending) (hphase : l.watch.phase = .looking lookup)
      (entries : List String) (hfinding : lookup.finding = .ips entries) :
      Acts l s [.stores (Watch.addressesOf l.watch.assignment.port entries), .hears entries]
        (.within l.watch (.found (Watch.addressesOf l.watch.assignment.port entries)))
  | fails (hpoint : l.point = none) (lookup : Pending) (hphase : l.watch.phase = .looking lookup) :
      Acts l s [.fails] (.within l.watch (.found []))
  | publishes (addresses : List Address) (hpoint : l.point = some (.found addresses)) :
      Acts l s [.publishes addresses] (.ofWatch l.watch)
  | stays (hpoint : l.point = none) : Acts l s [] l

variable {l : Loop} {s : Shared}

theorem read_forms (hpoint : l.point = some .taken) : Forms l s (l.deeds s) (l.read s) := by
  unfold deeds read
  rw [hpoint]
  dsimp only
  cases hcache : s.cache.get? l.watch.assignment.key with
  | none => exact .misses hpoint (by rw [hcache]; rfl)
  | some stored =>
      cases stored with
      | nil => exact .misses hpoint (by rw [hcache]; rfl)
      | cons a rest => exact .serves hpoint a rest hcache

theorem look_forms (hpoint : l.point = some .missed) : Forms l s (l.deeds s) (l.look s) := by
  unfold deeds look
  rw [hpoint]
  -- asking takes no time, so that the answer and the deadline are reckoned from the same instant
  have hnow : (s.ask l.watch.assignment.backend l.watch.assignment.host).2.now = s.now := rfl
  have htime : Watch.answerTime (s.ask l.watch.assignment.backend l.watch.assignment.host).2 =
      Watch.answerTime s := rfl
  generalize hasked : s.ask l.watch.assignment.backend l.watch.assignment.host = asked at hnow htime
  obtain ⟨answer, asked⟩ := asked
  dsimp only at hnow htime ⊢
  rw [hnow, htime]
  split
  · rename_i hatonce
    exact .endsAtOnce hpoint answer asked hasked hatonce
  · rename_i hunanswered
    split
    · rename_i hlate
      exact .failsAtOnce hpoint answer asked hasked hunanswered hlate
    · rename_i hearly
      exact .asks hpoint answer asked hasked hunanswered hearly

/-- **All that a step can be.** -/
theorem step_forms (l : Loop) (s : Shared) : Forms l s (l.deeds s) (l.step s) := by
  cases hpoint : l.point with
  | some point =>
      cases point with
      | taken =>
          have hstep : l.step s = l.read s := by simp [step, hpoint]
          rw [hstep]
          exact read_forms hpoint
      | missed =>
          have hstep : l.step s = l.look s := by simp [step, hpoint]
          rw [hstep]
          exact look_forms hpoint
      | found addresses =>
          have hdeeds : l.deeds s = [.publishes addresses] := by simp [deeds, hpoint]
          simp only [step, hpoint, hdeeds]
          exact .publishes addresses hpoint
  | none =>
      cases hphase : l.watch.phase with
      | looking lookup =>
          simp only [step, deeds, hpoint, hphase]
          split
          · rename_i hanswered
            exact .ends hpoint lookup hphase hanswered
          · rename_i hunanswered
            split
            · rename_i hlate
              exact .fails hpoint lookup hphase hunanswered hlate
            · rename_i hearly
              exact .waits hpoint lookup hphase hunanswered hearly
      | idle =>
          simp only [step, deeds, hpoint, hphase]
          split
          · rename_i hwanted
            exact .takes hpoint hphase hwanted
          · rename_i hwanted
            exact .parks hpoint hphase (by simpa using hwanted)
      | called =>
          simp only [step, deeds, hpoint, hphase]
          exact .wakes hpoint hphase
      | parked =>
          simp only [step, deeds, hpoint, hphase]
          exact .rests hpoint (.inl hphase)
      | stopped =>
          simp only [step, deeds, hpoint, hphase]
          exact .rests hpoint (.inr hphase)

theorem Forms.acts {deeds : List Deed} {after : Loop × Shared} (h : Forms l s deeds after) :
    Acts l s deeds after.1 := by
  cases h with
  | parks hpoint => exact .parks hpoint
  | takes hpoint => exact .takes hpoint false
  | wakes hpoint => exact .takes hpoint l.watch.wanted
  | serves hpoint a rest hcache => exact .serves hpoint a rest hcache
  | misses hpoint => exact .misses hpoint
  | endsAtOnce hpoint answer asked hasked hatonce =>
      cases hfinding : answer.finding with
      | ips entries => exact .hearsAtOnce hpoint answer entries hfinding
      | fails error => exact .failsAtOnce hpoint answer
      | hangs =>
          -- a lookup that never ends is not over at once
          rw [answerTime_eq_none hfinding] at hatonce
          cases hatonce
  | failsAtOnce hpoint answer => exact .failsAtOnce hpoint answer
  | asks hpoint answer => exact .asks hpoint answer _ rfl
  | ends hpoint lookup hphase =>
      cases hfinding : lookup.finding with
      | ips entries => exact .hears hpoint lookup hphase entries hfinding
      | fails error => exact .fails hpoint lookup hphase
      | hangs => exact .stays hpoint
  | fails hpoint lookup hphase => exact .fails hpoint lookup hphase
  | waits hpoint => exact .stays hpoint
  | publishes addresses hpoint => exact .publishes addresses hpoint
  | rests hpoint => exact .stays hpoint

/-- **What a step does with its loop.** -/
theorem step_acts (l : Loop) (s : Shared) : Acts l s (l.deeds s) (l.step s).1 :=
  (l.step_forms s).acts

theorem Forms.moves {deeds : List Deed} {after : Loop × Shared} (h : Forms l s deeds after)
    (hplain : l.Plain) : Moves l s after.1 after.2 := by
  have hask {answer : LookupAnswer} {asked : Shared}
      (hasked : s.ask l.watch.assignment.backend l.watch.assignment.host = (answer, asked)) :
      Apart s asked := by
    obtain rfl : (s.ask l.watch.assignment.backend l.watch.assignment.host).2 = asked :=
      congrArg Prod.snd hasked
    exact ⟨rfl, rfl⟩
  have hmissed (hpoint : l.point = some .missed) : l.seeks = true := by simp [seeks, hpoint]
  have hlooking {lookup : Pending} (hpoint : l.point = none)
      (hphase : l.watch.phase = .looking lookup) : l.seeks = true := by
    simp [seeks, hpoint, hphase]
  cases h with
  | parks hpoint hphase hwanted => exact .parks hpoint hphase hwanted
  | takes hpoint hphase hwanted => exact .takes hpoint hphase hwanted
  | wakes hpoint hphase => exact .wakes hpoint hphase
  | serves hpoint => exact .finds (by simp [seeks, hpoint]) _ _ ⟨rfl, rfl⟩
  | misses hpoint => exact .misses hpoint
  | endsAtOnce hpoint answer asked hasked hatonce =>
      refine conclude_moves (hmissed hpoint) (hask hasked) fun hhangs => ?_
      rw [answerTime_eq_none hhangs] at hatonce
      cases hatonce
  | failsAtOnce hpoint answer asked hasked =>
      exact .finds (hmissed hpoint) _ _ ⟨(hask hasked).outboxes, (hask hasked).tokens⟩
  | asks hpoint answer asked hasked =>
      refine .looks hpoint _ answerTime_eq_none _ ?_
      have hfirst := apart_alarm l.watch asked (Watch.answerTime s answer)
      have hsecond := apart_alarm l.watch (l.watch.alarm asked (Watch.answerTime s answer))
        (Clock.deadline? s.now l.watch.assignment.limit)
      exact ⟨hsecond.outboxes.trans (hfirst.outboxes.trans (hask hasked).outboxes),
        hsecond.tokens.trans (hfirst.tokens.trans (hask hasked).tokens)⟩
  | ends hpoint lookup hphase hanswered =>
      -- what hangs has no instant at which it is answered
      refine conclude_moves (hlooking hpoint hphase) ⟨rfl, rfl⟩ fun hhangs => ?_
      rw [hplain lookup hphase hhangs] at hanswered
      cases hanswered
  | fails hpoint lookup hphase => exact .finds (hlooking hpoint hphase) _ _ ⟨rfl, rfl⟩
  | waits hpoint lookup hphase hunanswered hearly =>
      exact .stays hpoint (.inr (.inr (by simp [Loop.waits, hphase, hunanswered, hearly])))
  | publishes addresses hpoint => exact .publishes addresses hpoint
  | rests hpoint hphase => exact .stays hpoint (hphase.imp_right .inl)

theorem step_moves (l : Loop) (s : Shared) (hplain : l.Plain) :
    Moves l s (l.step s).1 (l.step s).2 :=
  (l.step_forms s).moves hplain

theorem Acts.keeps {deeds : List Deed} {l' : Loop} (h : Acts l s deeds l') :
    l'.watch.number = l.watch.number ∧ l'.watch.assignment = l.watch.assignment ∧
      l'.watch.token = l.watch.token ∧ l'.watch.box = l.watch.box := by
  cases h with
  | _ => exact ⟨rfl, rfl, rfl, rfl⟩

end Loop

/-! ## The deeds tell it all -/

theorem modify_nothing (outboxes : List Outbox) (box : Nat) :
    outboxes.modify box (fun o => ⟨[] ++ o.published⟩) = outboxes := by
  have hsame : (fun o : Outbox => (⟨[] ++ o.published⟩ : Outbox)) = id := rfl
  rw [hsame, List.modify_id]

theorem Told.trans {a : Assignment} {box : Nat} {first second : List Deed} {s s' s'' : Shared}
    (h : Told a box first s s') (h' : Told a box second s' s'') :
    Told a box (second ++ first) s s'' where
  now := h'.now.trans h.now
  tokens := h'.tokens.trans h.tokens
  cache := by rw [h'.cache, h.cache, List.foldr_append]
  lookups := by rw [h'.lookups, h.lookups, h.now, List.filterMap_append, List.append_assoc]
  outboxes := by
    rw [h'.outboxes, h.outboxes, h.now, List.modify_modify_eq, List.filterMap_append]
    congr 1
    funext o
    simp only [Function.comp_apply, List.append_assoc]
  agenda := h.agenda.trans h'.agenda

theorem Told.box_self {a : Assignment} {box : Nat} {deeds : List Deed} {s s' : Shared}
    (h : Told a box deeds s s') (hbox : box < s.outboxes.length) :
    (s'.box box).published =
      deeds.filterMap (·.publication? s.now) ++ (s.box box).published := by
  simp only [Shared.box, List.getD, h.outboxes, List.getElem?_modify_eq]
  rw [List.getElem?_eq_getElem hbox]
  rfl

theorem Told.box_ne {a : Assignment} {box other : Nat} {deeds : List Deed} {s s' : Shared}
    (h : Told a box deeds s s') (hne : box ≠ other) : s'.box other = s.box other := by
  simp only [Shared.box, List.getD, h.outboxes, List.getElem?_modify_ne _ _ hne]

section Told

variable (a : Assignment) (box : Nat) (s : Shared)

/-- What changes nothing but the metrics and the agenda is done without a deed. -/
theorem told_aside (metrics : Metrics) {agenda : Agenda Task}
    (hagenda : s.agenda.Grows agenda) {deeds : List Deed}
    (hcache : deeds.foldr (·.cache a.key) s.cache = s.cache)
    (hlookups : deeds.filterMap (·.lookup? a s.now) = [])
    (hpublishes : deeds.filterMap (·.publication? s.now) = []) :
    Told a box deeds s { s with metrics, agenda } where
  now := rfl
  tokens := rfl
  cache := hcache.symm
  lookups := by rw [hlookups]; rfl
  outboxes := by rw [hpublishes, modify_nothing]
  agenda := hagenda

theorem told_nothing : Told a box [] s s :=
  told_aside a box s s.metrics (.refl _) rfl rfl rfl

theorem told_alarm (w : Watch) (due : Option Nat) : Told a box [] s (w.alarm s due) := by
  cases due with
  | none => exact told_nothing a box s
  | some t =>
      exact told_aside a box s s.metrics (s.agenda.grows_add t _) rfl rfl rfl

theorem told_ask (answer : LookupAnswer) :
    Told a box [.asks answer] s (s.ask a.backend a.host).2 where
  now := rfl
  tokens := rfl
  cache := rfl
  lookups := rfl
  outboxes := (modify_nothing s.outboxes box).symm
  agenda := .refl _

theorem told_store (entries : List String) (addresses : List Address) (dropped : Nat) :
    Told a box [.stores addresses, .hears entries] s
      ((s.count .droppedAddresses dropped).store a.key addresses) where
  now := rfl
  tokens := rfl
  cache := rfl
  lookups := rfl
  outboxes := (modify_nothing s.outboxes box).symm
  agenda := .refl _

theorem told_publish (addresses : List Address) :
    Told a box [.publishes addresses] s (s.publish box addresses) where
  now := rfl
  tokens := rfl
  cache := rfl
  lookups := rfl
  outboxes := rfl
  agenda := .refl _

end Told

namespace Loop

variable {l : Loop} {s : Shared}

theorem fail_told (l : Loop) (s : Shared) :
    Told l.watch.assignment l.watch.box [.fails] s (l.fail s).2 :=
  told_aside _ _ s _ (.refl _) rfl rfl rfl

theorem conclude_told (l : Loop) (s : Shared) (finding : Finding) :
    Told l.watch.assignment l.watch.box (l.endings finding) s (l.conclude s finding).2 := by
  cases finding with
  | ips entries =>
      have hstore := told_store l.watch.assignment l.watch.box s entries
        (Watch.addressesOf l.watch.assignment.port entries)
        (entries.length - (Watch.addressesOf l.watch.assignment.port entries).length)
      have hcounted (s' : Shared) : Told l.watch.assignment l.watch.box [] s'
          { s' with metrics := s'.metrics.tally (.resolutions .lookup) } :=
        told_aside _ _ s' _ (.refl _) rfl rfl rfl
      exact hstore.trans (hcounted _)
  | fails error => exact l.fail_told s
  | hangs => exact told_nothing _ _ s

theorem Forms.told {deeds : List Deed} {after : Loop × Shared} (h : Forms l s deeds after) :
    Told l.watch.assignment l.watch.box deeds s after.2 := by
  have hask {answer : LookupAnswer} {asked : Shared}
      (hasked : s.ask l.watch.assignment.backend l.watch.assignment.host = (answer, asked)) :
      Told l.watch.assignment l.watch.box [.asks answer] s asked := by
    have htold := told_ask l.watch.assignment l.watch.box s answer
    rwa [hasked] at htold
  cases h with
  | serves hpoint a rest hcache => exact told_aside _ _ s _ (.refl _) rfl rfl rfl
  | endsAtOnce hpoint answer asked hasked =>
      exact (hask hasked).trans (l.conclude_told asked answer.finding)
  | failsAtOnce hpoint answer asked hasked => exact (hask hasked).trans (l.fail_told asked)
  | asks hpoint answer asked hasked =>
      exact (hask hasked).trans ((told_alarm _ _ asked _ _).trans (told_alarm _ _ _ _ _))
  | ends hpoint lookup => exact l.conclude_told s lookup.finding
  | fails => exact l.fail_told s
  | publishes addresses => exact told_publish _ _ s addresses
  | _ => exact told_nothing _ _ s

/-- **The deeds of a step tell all that it does to others.** -/
theorem step_told (l : Loop) (s : Shared) :
    Told l.watch.assignment l.watch.box (l.deeds s) s (l.step s).2 :=
  (l.step_forms s).told

end Loop

end Dialer.Resolver
