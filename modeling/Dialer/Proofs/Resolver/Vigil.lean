import Dialer.Proofs.Resolver.Deeds
import Dialer.Resolver.Exchange

/-!
# The life of a watch

A vigil is a loop in all that may happen to it before its token is cancelled: requests, its own
steps, and whatever else goes on over what it shares with others. Beside the loop it records how
many requests were made, how many of them had been made when each cycle began, and what the cycles
found. `Vigil.Sound` holds at any time; it says where each request and each result is.

The watches of an exchange live so: whatever happens to one there is a vigil (`exists_vigil`).
-/

namespace Dialer.Resolver

/-- A loop, what it shares with others, and a record of what happened. -/
structure Vigil where
  loop : Loop
  shared : Shared
  /-- How many requests were made. -/
  requests : Nat
  /-- For each cycle how many requests had been made when it began, the latest first. -/
  begun : List Nat
  /-- What the cycles found, the latest first. -/
  results : List (List Address)

/-- What may happen to a loop whose token is not cancelled. -/
inductive Event where
  | request
  | go
  /-- The rest of the program goes on: time passes, the cache changes, answers are given. -/
  | elsewhere (after : Shared)

namespace Vigil

/-- The loop of a watch that was just made. -/
def start (s : Shared) (number : Nat) (a : Assignment) (token : Token) (box : Nat) : Vigil :=
  ⟨.ofWatch ⟨number, a, token, box, .idle, false⟩, s, 0, [], []⟩

/-- The sets in the outbox of the loop, the latest first. -/
def published (v : Vigil) : List (List Address) :=
  (v.shared.box v.loop.watch.box).published.map (·.addresses)

def IsParked (v : Vigil) : Prop :=
  v.loop.watch.phase = .parked

instance (v : Vigil) : Decidable v.IsParked :=
  inferInstanceAs (Decidable (v.loop.watch.phase = .parked))

def go (v : Vigil) : Vigil :=
  let (loop, shared) := v.loop.step v.shared
  { v with
    loop
    shared
    begun := if loop.point = some .taken then v.requests :: v.begun else v.begun
    results := loop.unpublished ++ v.results }

/-- The others leave the outbox of the loop alone, and its token uncancelled. -/
def Leaves (v : Vigil) (after : Shared) : Prop :=
  after.isCancelled v.loop.watch.token = false ∧
    after.outboxes[v.loop.watch.box]? = v.shared.outboxes[v.loop.watch.box]?

instance (v : Vigil) (after : Shared) : Decidable (v.Leaves after) :=
  inferInstanceAs (Decidable (_ ∧ _))

def step (v : Vigil) : Event → Vigil
  | .request => { v with loop := v.loop.request, requests := v.requests + 1 }
  | .go => v.go
  | .elsewhere after => if v.Leaves after then { v with shared := after } else v

def run (events : List Event) (v : Vigil) : Vigil :=
  events.foldl step v

theorem run_append (first second : List Event) (v : Vigil) :
    run (first ++ second) v = run second (run first v) :=
  List.foldl_append

/-- What holds of a vigil at any time. -/
structure Sound (v : Vigil) : Prop where
  uncancelled : v.shared.isCancelled v.loop.watch.token = false
  running : v.loop.watch.phase ≠ .stopped
  plain : v.loop.Plain
  /-- A loop does not wait while a request is kept. -/
  parked : v.IsParked → v.loop.watch.wanted = false
  hasBox : v.loop.watch.box < v.shared.outboxes.length
  /-- Each cycle finds one set. -/
  cycles : v.begun.length = v.results.length + v.loop.seeks.toNat
  /-- Each set is published once, and nothing else is. -/
  outcome : v.results = v.loop.unpublished ++ v.published
  /-- No request adds more than one cycle. -/
  bounded : v.begun.length + v.loop.owed ≤ v.requests
  /-- If nothing is owed, the last cycle began behind the last request. -/
  met : v.loop.owed = 0 → v.begun.headD 0 = v.requests

variable {v : Vigil}

theorem sound_start {s : Shared} {token : Token} {box : Nat} (number : Nat) (a : Assignment)
    (htoken : s.isCancelled token = false) (hbox : s.outboxes[box]? = some .empty) :
    (start s number a token box).Sound where
  uncancelled := htoken
  running := by simp [start, Loop.ofWatch]
  plain := by
    intro lookup hlooking
    cases hlooking
  parked := by
    intro hparked
    cases hparked
  hasBox := (List.getElem?_eq_some_iff.mp hbox).1
  cycles := rfl
  outcome := by
    have hempty : s.box box = .empty := by simp [Shared.box, List.getD, hbox]
    show [] = [] ++ (s.box box).published.map _
    rw [hempty]
    rfl
  bounded := Nat.le_refl 0
  met := fun _ => rfl

/-! ## Soundness -/

theorem sound_request (h : v.Sound) : (v.step .request).Sound := by
  rcases v.loop.request_cases with ⟨hphase, hpoint, hrequest⟩ | ⟨hphase, hidle, hrequest⟩
  · -- the loop is called: nothing was owed, and now one cycle is
    have hwanted : v.loop.watch.wanted = false := h.parked hphase
    have hcycles := h.cycles
    have houtcome := h.outcome
    have hbounded := h.bounded
    simp only [Loop.seeks, hpoint, hphase] at hcycles
    simp only [Loop.unpublished, hpoint] at houtcome
    constructor <;> simp only [step, hrequest, IsParked, Loop.watch_ofWatch]
    · exact h.uncancelled
    · exact Phase.noConfusion
    · intro lookup hlooking
      cases hlooking
    · exact Phase.noConfusion
    · exact h.hasBox
    · exact hcycles
    · exact houtcome
    · simp [Loop.owed, hwanted] at hbounded ⊢
      omega
    · simp [Loop.owed]
  · -- the request is kept, perhaps beside one that was kept already
    have hbounded := h.bounded
    constructor <;> simp only [step, hrequest, IsParked]
    · exact h.uncancelled
    · exact h.running
    · exact h.plain
    · exact fun hparked => absurd hparked hphase
    · exact h.hasBox
    · exact h.cycles
    · exact h.outcome
    · simp [Loop.owed] at hbounded ⊢
      omega
    · simp [Loop.owed]

theorem box_of_getElem?_eq {box : Nat} {before after : Shared}
    (hsame : after.outboxes[box]? = before.outboxes[box]?) : after.box box = before.box box := by
  simp only [Shared.box, List.getD, hsame]

theorem sound_elsewhere (h : v.Sound) (after : Shared) : (v.step (.elsewhere after)).Sound := by
  simp only [step]
  split
  · rename_i hleaves
    obtain ⟨huncancelled, hsame⟩ := hleaves
    refine { h with uncancelled := huncancelled, hasBox := ?_, outcome := ?_ }
    · have hbefore := hsame.trans (List.getElem?_eq_getElem h.hasBox)
      exact (List.getElem?_eq_some_iff.mp hbefore).1
    · show v.results = _ ++ (after.box v.loop.watch.box).published.map _
      rw [box_of_getElem?_eq hsame]
      exact h.outcome
  · exact h

theorem Sound.go_moves (h : v.Sound) : v.loop.Moves v.shared v.go.loop v.go.shared :=
  v.loop.step_moves v.shared h.plain

theorem begun_go (v : Vigil) : v.go.begun.length =
    v.begun.length + if v.go.loop.point = some .taken then 1 else 0 := by
  show (if v.go.loop.point = some .taken then v.requests :: v.begun else v.begun).length = _
  split <;> simp

theorem begun_owed_go (h : v.Sound) :
    v.go.begun.length + v.go.loop.owed = v.begun.length + v.loop.owed := by
  have howed := h.go_moves.owed_eq
  have hbegun := v.begun_go
  omega

theorem sound_go (h : v.Sound) : v.go.Sound := by
  have hmoves := h.go_moves
  obtain ⟨hbox, htoken, htokens⟩ := hmoves.keeps
  obtain ⟨hhas, hpublished⟩ := hmoves.published_eq h.hasBox
  constructor
  case uncancelled =>
    rw [htoken]
    show v.go.shared.tokens.isCancelled _ = false
    rw [htokens]
    exact h.uncancelled
  case running => exact hmoves.running h.running
  case plain => exact hmoves.plain h.plain
  case parked => exact hmoves.parked h.parked
  case hasBox => exact hhas
  case cycles =>
    have hseeks := hmoves.seeks_eq
    have hbegun := v.begun_go
    have hcycles := h.cycles
    have hresults : v.go.results.length = v.go.loop.unpublished.length + v.results.length :=
      List.length_append
    omega
  case outcome =>
    show v.go.loop.unpublished ++ v.results = _
    unfold published
    rw [hbox, hpublished, h.outcome]
    rfl
  case bounded =>
    have hbounded := h.bounded
    have howed := begun_owed_go h
    have hrequests : v.go.requests = v.requests := rfl
    omega
  case met =>
    intro hnone
    show (if v.go.loop.point = some .taken then v.requests :: v.begun else v.begun).headD 0 =
      v.requests
    -- a cycle begins behind all requests; where none begins, nothing was owed before
    split
    · rfl
    · rename_i htaken
      have howed := hmoves.owed_eq
      rw [if_neg htaken] at howed
      exact h.met (by omega)

theorem elsewhere_keeps (v : Vigil) (after : Shared) :
    (v.step (.elsewhere after)).begun = v.begun ∧ (v.step (.elsewhere after)).loop = v.loop ∧
      (v.step (.elsewhere after)).requests = v.requests := by
  simp only [step]
  split <;> exact ⟨rfl, rfl, rfl⟩

theorem sound_step (h : v.Sound) (e : Event) : (v.step e).Sound := by
  cases e with
  | request => exact sound_request h
  | go => exact sound_go h
  | elsewhere after => exact sound_elsewhere h after

theorem sound_run (h : v.Sound) (events : List Event) : (run events v).Sound := by
  induction events generalizing v with
  | nil => exact h
  | cons e events ih => exact ih (sound_step h e)

/-! ## The watches of an exchange -/

/-- A watch of an exchange stands where the loop of a vigil does. -/
structure Shows (v : Vigil) (x : Exchange) (n : Nat) : Prop where
  watch : x.watches[n]? = some v.loop.watch
  between : v.loop.point = none
  shared : x.shared = v.shared

/-- What may happen to a watch of an exchange, with a number of requests: it is requested, it has
its turns, and the rest of the exchange changes while the watch stays where it is. -/
inductive Course (n : Nat) (token : Token) (box : Nat) (x : Exchange) : Nat → Exchange → Prop
  | refl : Course n token box x 0 x
  | request {count : Nat} {y : Exchange} (h : Course n token box x count y) :
      Course n token box x (count + 1) (y.request n)
  | run {count : Nat} {y : Exchange} (h : Course n token box x count y) :
      Course n token box x count (y.run (.watch n))
  | elsewhere {count : Nat} {y z : Exchange} (h : Course n token box x count y)
      (hwatch : z.watches[n]? = y.watches[n]?) (htoken : z.shared.isCancelled token = false)
      (hbox : z.shared.outboxes[box]? = y.shared.outboxes[box]?) : Course n token box x count z

theorem shows_elsewhere {x z : Exchange} {n : Nat} (h : v.Shows x n)
    (hwatch : z.watches[n]? = x.watches[n]?) (hleaves : v.Leaves z.shared) :
    (v.step (.elsewhere z.shared)).Shows z n := by
  simp only [step, if_pos hleaves]
  exact ⟨hwatch.trans h.watch, h.between, rfl⟩

theorem shows_request {x : Exchange} {n : Nat} (hsound : v.Sound) (h : v.Shows x n) :
    ∃ events, (run events v).Shows (x.request n) n ∧
      (run events v).requests = v.requests + 1 := by
  let placed : Exchange := { x with watches := x.watches.set n v.loop.watch.request.1 }
  have hn : n < x.watches.length := (List.getElem?_eq_some_iff.mp h.watch).1
  have hplaced : (v.step .request).Shows placed n :=
    ⟨List.getElem?_set_self hn, h.between, h.shared⟩
  have hrequest : x.request n =
      if v.loop.watch.request.2 then placed.apply fun s => s.remind s.now (.watch n)
      else placed := by
    unfold Exchange.request
    rw [h.watch]
  rw [hrequest]
  split
  · -- the watch is woken, which is the business of its exchange
    refine ⟨[.request, .elsewhere _], shows_elsewhere hplaced rfl ⟨?_, ?_⟩,
      (elsewhere_keeps _ _).2.2⟩
    · have huncancelled := (sound_request hsound).uncancelled
      rwa [← hplaced.shared] at huncancelled
    · rw [← hplaced.shared]
      rfl
  · exact ⟨[.request], hplaced, rfl⟩

theorem run_go (count : Nat) (v : Vigil) :
    (run (List.replicate count .go) v).loop = (v.loop.run count v.shared).1 ∧
      (run (List.replicate count .go) v).shared = (v.loop.run count v.shared).2 ∧
      (run (List.replicate count .go) v).requests = v.requests := by
  induction count generalizing v with
  | zero => exact ⟨rfl, rfl, rfl⟩
  | succ count ih => exact ih v.go

theorem exists_run_turn (h : v.Sound) {w : Watch} (hloop : v.loop = .ofWatch w) :
    ∃ events, (run events v).loop = .ofWatch (w.turn v.shared).1 ∧
      (run events v).shared = (w.turn v.shared).2 ∧ (run events v).requests = v.requests := by
  have huncancelled := h.uncancelled
  rw [hloop] at huncancelled
  have hturn : w.turn v.shared = w.proceed v.shared := if_neg (by simp_all)
  obtain ⟨count, hrun⟩ := Loop.exists_run_proceed w v.shared
  obtain ⟨hgo, hshared, hrequests⟩ := run_go count v
  refine ⟨List.replicate count .go, ?_, ?_, hrequests⟩
  · rw [hgo, hloop, hrun, hturn]
  · rw [hshared, hloop, hrun, hturn]

theorem exists_run_watch (h : v.Sound) {w : Watch} (hloop : v.loop = .ofWatch w) :
    ∃ events, (run events v).loop = .ofWatch (w.run v.shared).1 ∧
      (run events v).shared = (w.run v.shared).2 ∧ (run events v).requests = v.requests := by
  obtain ⟨first, hloop1, hshared1, hrequests1⟩ := exists_run_turn h hloop
  have hsound1 := sound_run h first
  obtain ⟨second, hloop2, hshared2, hrequests2⟩ := exists_run_turn hsound1 hloop1
  have hsound2 := sound_run hsound1 second
  obtain ⟨third, hloop3, hshared3, hrequests3⟩ := exists_run_turn hsound2 hloop2
  refine ⟨first ++ (second ++ third), ?_, ?_, ?_⟩
  · rw [run_append, run_append, hloop3, hshared2, hshared1]
    rfl
  · rw [run_append, run_append, hshared3, hshared2, hshared1]
    rfl
  · rw [run_append, run_append, hrequests3, hrequests2, hrequests1]

theorem shows_run {x : Exchange} {n : Nat} (hsound : v.Sound) (h : v.Shows x n) :
    ∃ events, (run events v).Shows (x.run (.watch n)) n ∧
      (run events v).requests = v.requests := by
  have hn : n < x.watches.length := (List.getElem?_eq_some_iff.mp h.watch).1
  have hloop : v.loop = .ofWatch v.loop.watch := by
    have hbetween := h.between
    generalize v.loop = loop at hbetween ⊢
    obtain ⟨w, point, hidle⟩ := loop
    dsimp only at hbetween
    subst hbetween
    rfl
  obtain ⟨events, hafter, hshared, hrequests⟩ := exists_run_watch hsound hloop
  have hrun : x.run (.watch n) =
      { x with
        shared := (v.loop.watch.run x.shared).2
        watches := x.watches.set n (v.loop.watch.run x.shared).1 } := by
    unfold Exchange.run
    dsimp only
    rw [h.watch]
  refine ⟨events, ?_, hrequests⟩
  rw [hrun, h.shared]
  refine ⟨?_, ?_, hshared.symm⟩
  · rw [hafter]
    exact List.getElem?_set_self hn
  · rw [hafter]
    rfl

theorem run_keeps (h : v.Sound) (events : List Event) :
    (run events v).loop.watch.token = v.loop.watch.token ∧
      (run events v).loop.watch.box = v.loop.watch.box := by
  induction events generalizing v with
  | nil => exact ⟨rfl, rfl⟩
  | cons e events ih =>
      obtain ⟨htoken, hbox⟩ := ih (sound_step h e)
      have hfirst : (v.step e).loop.watch.token = v.loop.watch.token ∧
          (v.step e).loop.watch.box = v.loop.watch.box := by
        cases e with
        | request =>
            simp only [step, Loop.request, Watch.request]
            split <;> exact ⟨rfl, rfl⟩
        | go => exact ⟨h.go_moves.keeps.2.1, h.go_moves.keeps.1⟩
        | elsewhere after =>
            rw [(v.elsewhere_keeps after).2.1]
            exact ⟨rfl, rfl⟩
      exact ⟨htoken.trans hfirst.1, hbox.trans hfirst.2⟩

/-- **Whatever happens to a watch of an exchange is a vigil** with the same requests, the first of
which is made with the watch. -/
theorem exists_vigil {x y : Exchange} (a : Assignment) {token : Token} {box count : Nat}
    (htoken : x.shared.isCancelled token = false) (hbox : x.shared.outboxes[box]? = some .empty)
    (hcourse : Course x.watches.length token box (x.watch a token box).2 count y) :
    ∃ events, let v := run events (start x.shared x.watches.length a token box)
      v.Shows y x.watches.length ∧ v.requests = count + 1 := by
  have hstart := sound_start x.watches.length a htoken hbox
  induction hcourse with
  | refl =>
      let made : Exchange :=
        { x with watches := x.watches ++ [⟨x.watches.length, a, token, box, .idle, false⟩] }
      have hmade : (start x.shared x.watches.length a token box).Shows made x.watches.length :=
        ⟨by simp [made, start], rfl, rfl⟩
      let due : Exchange := made.apply fun s => s.remind s.now (.watch x.watches.length)
      have hdue := shows_elsewhere (z := due) hmade rfl ⟨htoken, rfl⟩
      obtain ⟨events, hfirst, hone⟩ :=
        shows_request (sound_step hstart (.elsewhere due.shared)) hdue
      refine ⟨.elsewhere due.shared :: events, hfirst, hone.trans ?_⟩
      rw [(elsewhere_keeps _ _).2.2]
      rfl
  | request _ ih =>
      obtain ⟨events, hbefore, hcount⟩ := ih
      obtain ⟨more, hafter, hmore⟩ := shows_request (sound_run hstart events) hbefore
      refine ⟨events ++ more, ?_⟩
      rw [run_append]
      exact ⟨hafter, by rw [hmore, hcount]⟩
  | run _ ih =>
      obtain ⟨events, hbefore, hcount⟩ := ih
      obtain ⟨more, hafter, hmore⟩ := shows_run (sound_run hstart events) hbefore
      refine ⟨events ++ more, ?_⟩
      rw [run_append]
      exact ⟨hafter, hmore.trans hcount⟩
  | @elsewhere _ _ z _ hwatch hfree hsame ih =>
      obtain ⟨events, hbefore, hcount⟩ := ih
      obtain ⟨htokens, hboxes⟩ := run_keeps hstart events
      refine ⟨events ++ [.elsewhere z.shared], ?_⟩
      rw [run_append]
      refine ⟨shows_elsewhere hbefore hwatch ⟨?_, ?_⟩, (elsewhere_keeps _ _).2.2.trans hcount⟩
      · rw [htokens]
        exact hfree
      · rw [hboxes, ← hbefore.shared]
        exact hsame

end Vigil

end Dialer.Resolver
