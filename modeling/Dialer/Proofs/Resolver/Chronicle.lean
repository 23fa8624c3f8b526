import Dialer.Proofs.Resolver.Deeds
import Dialer.Resolver.Registry
import Mathlib.Logic.Function.Basic

/-!
# The chronicle of an exchange

A chronicle is an exchange in all that may happen to it. Its watches go on in the steps of their
loops, one at a time and in any order, so other watches, janitors and the rest of the program come
in between wherever a loop can be interrupted: also between its reading of the cache and the lookup,
and between the end of a lookup and the publication. The journal takes down what the watches do.

* `Chronicle.step` — one occurrence; everything but the step of a loop is an operation of the
  exchange itself;
* `Chronicle.step_takes` — what an occurrence may do, said once for all invariants.

Time passes in two ways, as it does for an exchange: `Occurrence.pass` goes no further than the
next timer, and `Occurrence.jump` passes timers by.
-/

namespace Dialer.Resolver

/-- A deed, with its doer and its time. -/
structure Entry where
  /-- The number of the watch. -/
  number : Nat
  assignment : Assignment
  time : Nat
  deed : Deed
deriving DecidableEq

/-- What was done, the latest first. -/
abbrev Journal := List Entry

namespace Journal

/-- What one watch did. -/
def of (n : Nat) (journal : Journal) : Journal :=
  journal.filter (·.number = n)

def lookups (journal : Journal) : List LookupRecord :=
  journal.filterMap fun e => e.deed.lookup? e.assignment e.time

def publications (n : Nat) (journal : Journal) : List Publication :=
  (of n journal).filterMap fun e => e.deed.publication? e.time

end Journal

/-- An exchange with the points at which its loops stand, and what its watches did. -/
structure Chronicle where
  exchange : Exchange
  points : Nat → Option Point
  journal : Journal

/-- What may happen to an exchange. -/
inductive Occurrence where
  /-- A watch goes on by one step. -/
  | go (n : Nat)
  /-- A janitor goes on. -/
  | sweep (n : Nat)
  | request (n : Nat)
  | close (n : Nat)
  | cancel (token : Token)
  /-- A target is watched, with an outbox of its own. -/
  | watch (options : LookupOptions) (target : Target)
  | janitor (every : Duration) (token : Token)
  /-- A token is made, below another or on its own. -/
  | mint (above : Option Token)
  /-- An outbox is made that belongs to no watch. -/
  | box
  /-- Someone else publishes. -/
  | publish (box : Nat) (addresses : List Address)
  /-- Someone else stores addresses. -/
  | put (key : String) (addresses : List Address)
  | clear
  | pass (now : Nat)
  | jump (now : Nat)
  /-- What is due is taken off the agenda. -/
  | retire
  /-- Something else is counted, and the backends will answer otherwise. -/
  | elsewhere (metrics : Metrics) (directory : Directory)

/-- Does it change the time or a janitor? -/
def Occurrence.isTiming : Occurrence → Bool
  | .sweep _ | .janitor _ _ | .pass _ | .jump _ => true
  | _ => false

namespace Chronicle

def start (directory : Directory) : Chronicle :=
  ⟨.start directory, fun _ => none, []⟩

def via (v : Chronicle) (f : Exchange → Exchange) : Chronicle :=
  { v with exchange := f v.exchange }

def apply (v : Chronicle) (f : Shared → Shared) : Chronicle :=
  v.via (·.apply f)

def shared (v : Chronicle) : Shared :=
  v.exchange.shared

/-- The watch of a number. -/
def watch? (v : Chronicle) (n : Nat) : Option Watch :=
  v.exchange.watches[n]?

/-- Puts a changed watch in its place. -/
def place (v : Chronicle) (n : Nat) (w : Watch) : Chronicle :=
  v.via fun x => { x with watches := x.watches.set n w }

/-- A watch does deeds, which leaves its loop and what is shared in a new state. -/
def carry (v : Chronicle) (n : Nat) (a : Assignment) (deeds : List Deed) (l : Loop)
    (shared : Shared) : Chronicle where
  exchange := { v.exchange with shared, watches := v.exchange.watches.set n l.watch }
  points := Function.update v.points n l.point
  journal := deeds.map (⟨n, a, v.shared.now, ·⟩) ++ v.journal

/-- The next step of a watch. Between two turns it looks at its token first. -/
def go (v : Chronicle) (n : Nat) : Chronicle :=
  match v.watch? n with
  | none => v
  | some w =>
    if v.points n = none ∧ v.shared.isCancelled w.token then v.place n { w with phase := .stopped }
    else
      let l := Loop.standing w (v.points n)
      let (next, shared) := l.step v.shared
      v.carry n w.assignment (l.deeds v.shared) next shared

/-- The instants at which watches and janitors go on by themselves. -/
def timers (v : Chronicle) : List Nat :=
  (v.exchange.janitors.filter (·.running)).map (·.rhythm.firesAt) ++
    v.exchange.watches.flatMap fun w =>
      match w.phase with
      | .looking lookup => lookup.answersAt.toList ++ lookup.deadline.toList
      | _ => []

def step (v : Chronicle) : Occurrence → Chronicle
  | .go n => v.go n
  | .sweep n => v.via (·.run (.janitor n))
  | .request n => v.via (·.request n)
  | .close n => v.via (·.close (some n))
  | .cancel token => v.via (·.cancel token)
  | .watch options target => v.via fun x =>
    let (box, shared) := x.shared.openBox
    ({ x with shared }.watchTarget options target box).2
  | .janitor every token => v.via fun x => (x.janitor? every token).getD x
  | .mint (some above) => v.via fun x => (x.childToken above).2
  | .mint none => v.via fun x => x.rootToken.2
  | .box => v.apply fun s => s.openBox.2
  | .publish box addresses =>
    if ∀ w ∈ v.exchange.watches, w.box ≠ box then v.apply (·.publish box addresses) else v
  | .put key addresses => v.apply (·.store key addresses)
  | .clear => v.apply (·.clear)
  | .pass now =>
    if v.shared.now ≤ now ∧ ∀ t ∈ v.timers, now ≤ t then v.apply fun s => { s with now } else v
  | .jump now => if v.shared.now ≤ now then v.apply fun s => { s with now } else v
  | .retire => v.apply fun s => { s with agenda := s.agenda.later s.now }
  | .elsewhere metrics directory => v.apply fun s => { s with metrics, directory }

def run (occurrences : List Occurrence) (v : Chronicle) : Chronicle :=
  occurrences.foldl step v

theorem run_append (first second : List Occurrence) (v : Chronicle) :
    run (first ++ second) v = run second (run first v) :=
  List.foldl_append

variable {v : Chronicle}

@[simp] theorem shared_carry (v : Chronicle) (n : Nat) (a : Assignment) (deeds : List Deed)
    (l : Loop) (s : Shared) : (v.carry n a deeds l s).shared = s := rfl

theorem lt_of_watch? {n : Nat} {w : Watch} (h : v.watch? n = some w) :
    n < v.exchange.watches.length :=
  (List.getElem?_eq_some_iff.mp h).1

/-! ## What an occurrence may do -/

/-- The watches, and all that the journal tells of, stay as they are. -/
structure Aside (v : Chronicle) (o : Occurrence) (v' : Chronicle) : Prop where
  watches : v'.exchange.watches = v.exchange.watches
  points : v'.points = v.points
  journal : v'.journal = v.journal
  lookups : v'.shared.lookups = v.shared.lookups
  cache : v'.shared.cache = v.shared.cache ∨ v'.shared.cache = .empty ∨
    ∃ key addresses, o = .put key addresses
  clock : o.isTiming = true ∨
    v'.shared.now = v.shared.now ∧ v'.exchange.janitors = v.exchange.janitors
  marks : v.shared.tokens.next ≤ v'.shared.tokens.next
  cancelled : ∀ mark ∈ v.shared.tokens.cancelled, mark ∈ v'.shared.tokens.cancelled
  /-- Only a cancellation cancels. -/
  uncancelled : ∀ mark ∈ v'.shared.tokens.cancelled, mark ∈ v.shared.tokens.cancelled ∨
    ∃ t : Token, mark ∈ t.lineage.head? ∧
      (o = .cancel t ∨ ∃ n w, o = .close n ∧ v.watch? n = some w ∧ w.token = t)
  room : v.shared.outboxes.length ≤ v'.shared.outboxes.length
  outboxes : ∀ w ∈ v.exchange.watches, w.box < v.shared.outboxes.length →
    v'.shared.box w.box = v.shared.box w.box
  agenda : v.shared.agenda.Sorted → v'.shared.agenda.Sorted
  /-- What is on the agenda stays there until it is retired. -/
  kept : o = .retire ∨ ∀ entry ∈ v.shared.agenda.entries, entry ∈ v'.shared.agenda.entries

/-- All that an occurrence may do. -/
inductive Takes (v : Chronicle) (o : Occurrence) : Chronicle → Prop
  /-- A loop takes a step. -/
  | acts (n : Nat) (w : Watch) (deeds : List Deed) (l : Loop) (shared : Shared)
      (ho : o = .go n) (hwatch : v.watch? n = some w)
      (hfree : v.points n = none → v.shared.isCancelled w.token = false)
      (hacts : (Loop.standing w (v.points n)).Acts v.shared deeds l)
      (htold : Told w.assignment w.box deeds v.shared shared) :
      Takes v o (v.carry n w.assignment deeds l shared)
  /-- A watch stops, is called, or keeps a request. -/
  | alters (n : Nat) (w : Watch) (phase : Phase) (wanted : Bool) (agenda : Agenda Task)
      (hwatch : v.watch? n = some w) (hwithin : v.points n ≠ none → phase = w.phase)
      (hlooking : ∀ lookup, phase = .looking lookup → w.phase = .looking lookup)
      (hstopped : w.phase = .stopped → phase = .stopped)
      (hagenda : v.shared.agenda.Grows agenda)
      (hphase : phase = w.phase ∨ w.phase = .parked ∨
        o = .go n ∧ v.shared.isCancelled w.token = true) :
      Takes v o ((v.apply fun s => { s with agenda }).place n { w with phase, wanted })
  | begins (options : LookupOptions) (target : Target) (w : Watch) (agenda : Agenda Task)
      (ho : o = .watch options target) (hassignment : w.assignment = options.assignment target)
      (hnumber : w.number = v.exchange.watches.length) (hbox : w.box = v.shared.outboxes.length)
      (htoken : w.token.lineage.head? = some v.shared.tokens.next) (hphase : w.phase = .idle)
      (hagenda : v.shared.agenda.Grows agenda) :
      Takes v o ((v.apply fun s =>
        { s with
          outboxes := s.outboxes ++ [.empty]
          tokens := { s.tokens with next := s.tokens.next + 1 }
          agenda }).via fun x => { x with watches := x.watches ++ [w] })
  | aside (v' : Chronicle) (h : Aside v o v') : Takes v o v'

theorem aside_refl (v : Chronicle) (o : Occurrence) : Aside v o v where
  watches := rfl
  points := rfl
  journal := rfl
  lookups := rfl
  cache := .inl rfl
  clock := .inr ⟨rfl, rfl⟩
  marks := Nat.le_refl _
  cancelled := fun _ h => h
  uncancelled := fun _ h => .inl h
  room := Nat.le_refl _
  outboxes := fun _ _ _ => rfl
  agenda := id
  kept := .inr fun _ h => h

theorem remind_all (tasks : List Task) (s : Shared) :
    ∃ agenda : Agenda Task, tasks.foldl (fun s task => s.remind s.now task) s = { s with agenda } ∧
      s.agenda.Grows agenda ∧ ∀ task ∈ tasks, (s.now, task) ∈ agenda.entries := by
  induction tasks generalizing s with
  | nil => exact ⟨s.agenda, rfl, .refl _, fun _ h => absurd h List.not_mem_nil⟩
  | cons task tasks ih =>
      obtain ⟨agenda, hsame, hgrows, hnew⟩ := ih (s.remind s.now task)
      refine ⟨agenda, hsame, (s.agenda.grows_add s.now task).trans hgrows, ?_⟩
      intro other hother
      rcases List.mem_cons.mp hother with rfl | hlater
      · exact hgrows.kept _ (Agenda.mem_insert.mpr (.inl rfl))
      · exact hnew other hlater

/-- Cancelling a token changes the tokens, and puts what it stops on the agenda. -/
theorem cancel_eq (x : Exchange) (t : Token) :
    ∃ agenda : Agenda Task,
      x.cancel t = x.apply (fun s => { s with tokens := s.tokens.cancel t, agenda }) ∧
      x.shared.agenda.Grows agenda ∧
      ∀ w ∈ x.watches, (x.shared.tokens.cancel t).isCancelled w.token = true →
        (x.now, .watch w.number) ∈ agenda.entries := by
  let y := x.apply fun s => { s with tokens := s.tokens.cancel t }
  let tasks := (y.watches.filter fun w => y.shared.isCancelled w.token).map
    (fun w => Task.watch w.number) ++
      (y.janitors.filter fun j => y.shared.isCancelled j.token).map fun j => Task.janitor j.number
  obtain ⟨agenda, hsame, hgrows, hnew⟩ := remind_all tasks y.shared
  refine ⟨agenda, ?_, hgrows, ?_⟩
  · have hcancel : x.cancel t =
        { y with shared := tasks.foldl (fun s task => s.remind s.now task) y.shared } := rfl
    rw [hcancel, hsame]
    rfl
  · intro w hw hcancelled
    refine hnew _ (List.mem_append_left _ (List.mem_map.mpr ⟨w, ?_, rfl⟩))
    exact List.mem_filter.mpr ⟨hw, hcancelled⟩

theorem aside_cancel (v : Chronicle) (o : Occurrence) (t : Token)
    (ho : o = .cancel t ∨ ∃ n w, o = .close n ∧ v.watch? n = some w ∧ w.token = t) :
    Aside v o (v.via (·.cancel t)) := by
  obtain ⟨agenda, hsame, hgrows, -⟩ := cancel_eq v.exchange t
  show Aside v o { v with exchange := v.exchange.cancel t }
  rw [hsame]
  refine { aside_refl v o with
    cancelled := ?_, uncancelled := ?_, agenda := hgrows.sorted, kept := .inr hgrows.kept }
  · exact fun mark hmark => List.mem_append_right _ hmark
  · intro mark hmark
    rcases List.mem_append.mp hmark with hnew | hbefore
    · refine .inr ⟨t, ?_, ho⟩
      obtain ⟨lineage⟩ := t
      cases lineage with
      | nil => cases hnew
      | cons first rest => exact congrArg some (List.mem_singleton.mp hnew).symm
    · exact .inl hbefore

theorem standing_keeps (w : Watch) (point : Option Point) :
    (Loop.standing w point).watch.number = w.number ∧
      (Loop.standing w point).watch.assignment = w.assignment ∧
      (Loop.standing w point).watch.token = w.token ∧
      (Loop.standing w point).watch.box = w.box := by
  cases point with
  | none => exact ⟨rfl, rfl, rfl, rfl⟩
  | some point => exact ⟨rfl, rfl, rfl, rfl⟩

theorem standing_eq (l : Loop) : Loop.standing l.watch l.point = l := by
  obtain ⟨w, point, hidle⟩ := l
  cases point with
  | none => rfl
  | some point =>
      have hphase : w.phase = .idle := hidle (Option.some_ne_none point)
      obtain ⟨number, assignment, token, box, phase, wanted⟩ := w
      cases hphase
      rfl

theorem standing_point (w : Watch) (point : Option Point) :
    (Loop.standing w point).point = point := by
  cases point <;> rfl

theorem go_takes (v : Chronicle) (n : Nat) : Takes v (.go n) (v.go n) := by
  unfold go
  cases hwatch : v.watch? n with
  | none => exact .aside v (aside_refl v _)
  | some w =>
      dsimp only
      split
      · rename_i hstops
        exact .alters n w .stopped w.wanted v.shared.agenda hwatch
          (fun hpoint => absurd hstops.1 hpoint) (fun _ h => Phase.noConfusion h) (fun _ => rfl)
          (.refl _) (.inr (.inr ⟨rfl, hstops.2⟩))
      · rename_i hgoes
        obtain ⟨-, hassignment, -, hbox⟩ := standing_keeps w (v.points n)
        have htold := (Loop.standing w (v.points n)).step_told v.shared
        rw [hassignment, hbox] at htold
        refine .acts n w _ _ _ rfl hwatch (fun hpoint => ?_) (Loop.step_acts _ _) htold
        by_contra hcancelled
        exact hgoes ⟨hpoint, by simpa using hcancelled⟩

theorem run_janitor (x : Exchange) (n : Nat) :
    (x.janitors[n]? = none ∧ x.run (.janitor n) = x) ∨
    ∃ j, x.janitors[n]? = some j ∧ x.run (.janitor n) =
      { x with shared := (j.run x.shared).2, janitors := x.janitors.set n (j.run x.shared).1 } := by
  cases hjanitor : x.janitors[n]? with
  | none => exact .inl ⟨rfl, by simp [Exchange.run, hjanitor]⟩
  | some j => exact .inr ⟨j, rfl, by simp [Exchange.run, hjanitor]⟩

theorem janitor_run (j : Janitor) (s : Shared) :
    (s.isCancelled j.token = true ∧ j.run s = ({ j with running := false }, s)) ∨
    (s.isCancelled j.token = false ∧ j.running = true ∧ j.rhythm.firesAt ≤ s.now ∧
      j.run s = ({ j with rhythm := j.rhythm.catchUp s.now },
        s.clear.remind (j.rhythm.catchUp s.now).firesAt (.janitor j.number))) ∨
    (s.isCancelled j.token = false ∧ ¬ (j.running = true ∧ j.rhythm.firesAt ≤ s.now) ∧
      j.run s = (j, s)) := by
  by_cases hcancelled : s.isCancelled j.token = true
  · exact .inl ⟨hcancelled, by simp [Janitor.run, hcancelled]⟩
  · have hfree : s.isCancelled j.token = false := by simpa using hcancelled
    by_cases hdue : j.running = true ∧ j.rhythm.firesAt ≤ s.now
    · exact .inr (.inl ⟨hfree, hdue.1, hdue.2,
        by simp [Janitor.run, Janitor.schedule, hfree, hdue]⟩)
    · exact .inr (.inr ⟨hfree, hdue, by simp [Janitor.run, hfree, hdue]⟩)

/-- A janitor that goes on clears the cache and notes when it is next due, or nothing changes but
the janitors. -/
theorem sweep_cases (x : Exchange) (n : Nat) :
    ∃ janitors, x.run (.janitor n) = { x with janitors } ∨ ∃ due number,
      x.run (.janitor n) =
        { x with janitors, shared := x.shared.clear.remind due (.janitor number) } := by
  rcases run_janitor x n with ⟨-, hsame⟩ | ⟨j, -, hrun⟩
  · exact ⟨x.janitors, .inl hsame⟩
  · refine ⟨x.janitors.set n (j.run x.shared).1, ?_⟩
    rw [hrun]
    rcases janitor_run j x.shared with ⟨-, hrun⟩ | ⟨-, -, -, hrun⟩ | ⟨-, -, hrun⟩
    · rw [hrun]
      exact .inl rfl
    · rw [hrun]
      exact .inr ⟨_, _, rfl⟩
    · rw [hrun]
      exact .inl rfl

theorem sweep_aside (v : Chronicle) (n : Nat) :
    Aside v (.sweep n) (v.via (·.run (.janitor n))) := by
  show Aside v _ { v with exchange := v.exchange.run (.janitor n) }
  obtain ⟨janitors, hsame | ⟨due, number, hclear⟩⟩ := sweep_cases v.exchange n
  · rw [hsame]
    exact { aside_refl v (.sweep n) with clock := .inl rfl }
  · rw [hclear]
    exact { aside_refl v (.sweep n) with
      clock := .inl rfl
      cache := .inr (.inl rfl)
      agenda := (Agenda.grows_add ..).sorted, kept := .inr (Agenda.grows_add ..).kept }

/-- A watch that is not parked keeps a request. -/
theorem request_kept {n : Nat} {w : Watch} (hwatch : v.watch? n = some w)
    (hparked : w.phase ≠ .parked) :
    v.step (.request n) = v.place n { w with wanted := true } := by
  have hkept : w.request = ({ w with wanted := true }, false) := by
    unfold Watch.request
    split
    · exact absurd ‹_› hparked
    · rfl
  have hfound : v.exchange.watches[n]? = some w := hwatch
  simp [step, via, place, Exchange.request, hfound, hkept]

theorem request_takes (v : Chronicle) (o : Occurrence) (n : Nat) (hwithin : ∀ w,
    v.watch? n = some w → v.points n ≠ none → w.phase = .idle) :
    Takes v o (v.via (·.request n)) := by
  show Takes v o { v with exchange := v.exchange.request n }
  cases hwatch : v.exchange.watches[n]? with
  | none =>
      have hsame : v.exchange.request n = v.exchange := by simp [Exchange.request, hwatch]
      rw [hsame]
      exact .aside v (aside_refl v o)
  | some w =>
      by_cases hparked : w.phase = .parked
      · have hrequest : v.exchange.request n =
            { v.exchange with
              shared := v.shared.remind v.shared.now (.watch n)
              watches := v.exchange.watches.set n { w with phase := .called } } := by
          simp [Exchange.request, hwatch, Watch.request, hparked, Exchange.apply, shared]
        rw [hrequest]
        refine .alters n w .called w.wanted _ hwatch (fun hpoint => ?_)
          (fun _ h => Phase.noConfusion h) (fun hstopped => ?_) (Agenda.grows_add ..)
          (.inr (.inl hparked))
        · have hidle := hwithin w hwatch hpoint
          rw [hparked] at hidle
          cases hidle
        · rw [hparked] at hstopped
          cases hstopped
      · have hrequest : { v with exchange := v.exchange.request n } =
            v.place n { w with wanted := true } := request_kept hwatch hparked
        rw [hrequest]
        exact .alters n w w.phase true v.shared.agenda hwatch (fun _ => rfl) (fun _ h => h) id
          (.refl _) (.inl rfl)

/-- A watch begins with a request that is kept. -/
theorem watch_eq (x : Exchange) (a : Assignment) (token : Token) (box : Nat) :
    x.watch a token box = (x.watches.length,
      { x with
        shared := x.shared.remind x.shared.now (.watch x.watches.length)
        watches := x.watches ++ [⟨x.watches.length, a, token, box, .idle, true⟩] }) := by
  simp [Exchange.watch, Exchange.request, Exchange.apply, Watch.request]

/-- A watched target gets a token with a mark of its own, below the token it stops with. -/
theorem watchTarget_eq (x : Exchange) (options : LookupOptions) (target : Target) (box : Nat) :
    x.watchTarget options target box = (some x.watches.length,
      { x with
        shared := { x.shared with
          tokens := { x.shared.tokens with next := x.shared.tokens.next + 1 }
          agenda := x.shared.agenda.add x.shared.now (.watch x.watches.length) }
        watches := x.watches ++ [⟨x.watches.length, options.assignment target,
          ⟨x.shared.tokens.next :: options.shutdown.elim [] (·.lineage)⟩, box, .idle,
          true⟩] }) := by
  cases habove : options.shutdown with
  | none =>
      simp only [Exchange.watchTarget, Exchange.watchToken, habove, watch_eq]
      rfl
  | some above =>
      simp only [Exchange.watchTarget, Exchange.watchToken, habove, watch_eq]
      rfl

/-- A watch that begins has the outbox that was opened for it. -/
theorem step_watch (v : Chronicle) (options : LookupOptions) (target : Target) :
    v.step (.watch options target) =
      { v with exchange := { v.exchange with
        shared := { v.shared.openBox.2 with
          tokens := { v.shared.tokens with next := v.shared.tokens.next + 1 }
          agenda := v.shared.agenda.add v.shared.now (.watch v.exchange.watches.length) }
        watches := v.exchange.watches ++ [⟨v.exchange.watches.length, options.assignment target,
          ⟨v.shared.tokens.next :: options.shutdown.elim [] (·.lineage)⟩, v.shared.openBox.1,
          .idle, true⟩] } } :=
  congrArg (fun made : Handle × Exchange => { v with exchange := made.2 })
    (watchTarget_eq { v.exchange with shared := v.shared.openBox.2 } options target
      v.shared.openBox.1)

theorem watch_takes (v : Chronicle) (options : LookupOptions) (target : Target) :
    Takes v (.watch options target) (v.step (.watch options target)) := by
  rw [step_watch]
  exact .begins options target _ _ rfl rfl rfl rfl rfl rfl (Agenda.grows_add ..)

theorem box_append {s : Shared} {outboxes : List Outbox} {n : Nat} (hn : n < s.outboxes.length)
    (h : outboxes = s.outboxes ++ [.empty]) : outboxes.getD n .empty = s.box n := by
  simp only [h, Shared.box, List.getD, List.getElem?_append_left hn]

/-- **What an occurrence may do.** -/
theorem step_takes (v : Chronicle) (o : Occurrence) (hwithin : ∀ n w, v.watch? n = some w →
    v.points n ≠ none → w.phase = .idle) : Takes v o (v.step o) := by
  cases o with
  | go n => exact v.go_takes n
  | sweep n => exact .aside _ (v.sweep_aside n)
  | request n => exact v.request_takes _ n (hwithin n)
  | close n =>
      show Takes v _ { v with exchange := v.exchange.close (some n) }
      unfold Exchange.close
      dsimp only [Option.bind]
      split
      · rename_i w hwatch
        exact .aside _ (v.aside_cancel _ _ (.inr ⟨n, w, rfl, hwatch, rfl⟩))
      · exact .aside _ (aside_refl v _)
  | cancel token => exact .aside _ (v.aside_cancel _ token (.inl rfl))
  | watch options target => exact v.watch_takes options target
  | janitor every token =>
      refine .aside _ ?_
      show Aside v _ { v with exchange := (v.exchange.janitor? every token).getD v.exchange }
      unfold Exchange.janitor?
      cases Rhythm.start? every v.exchange.now with
      | none => exact aside_refl v _
      | some rhythm =>
          exact { aside_refl v (.janitor every token) with
            clock := .inl rfl, agenda := (Agenda.grows_add ..).sorted
            kept := .inr (Agenda.grows_add ..).kept }
  | mint above =>
      cases above with
      | none => exact .aside _ { aside_refl v _ with marks := Nat.le_succ _ }
      | some above => exact .aside _ { aside_refl v _ with marks := Nat.le_succ _ }
  | box =>
      exact .aside _ { aside_refl v _ with
        room := (List.prefix_append v.shared.outboxes _).length_le
        outboxes := fun w _ hbox => box_append hbox rfl }
  | publish box addresses =>
      simp only [step]
      split
      · rename_i hapart
        refine .aside _ { aside_refl v _ with room := ?_, outboxes := ?_ }
        · show v.shared.outboxes.length ≤ (v.shared.outboxes.modify box _).length
          exact Nat.le_of_eq (List.length_modify ..).symm
        · intro w hw _
          have hne : box ≠ w.box := fun hsame => hapart w hw hsame.symm
          simp [Shared.publish, Shared.box, List.getD, hne, apply, via, Exchange.apply, shared]
      · exact .aside _ (aside_refl v _)
  | put key addresses =>
      exact .aside _ { aside_refl v (.put key addresses) with
        cache := .inr (.inr ⟨key, addresses, rfl⟩) }
  | clear => exact .aside _ { aside_refl v .clear with cache := .inr (.inl rfl) }
  | pass now =>
      simp only [step]
      split
      · exact .aside _ { aside_refl v (.pass now) with clock := .inl rfl }
      · exact .aside _ (aside_refl v _)
  | jump now =>
      simp only [step]
      split
      · exact .aside _ { aside_refl v (.jump now) with clock := .inl rfl }
      · exact .aside _ (aside_refl v _)
  | retire => exact .aside _ { aside_refl v _ with
      agenda := fun h => Agenda.sorted_later h _, kept := .inl rfl }
  | elsewhere metrics directory => exact .aside _ { aside_refl v _ with }

end Chronicle

end Dialer.Resolver
