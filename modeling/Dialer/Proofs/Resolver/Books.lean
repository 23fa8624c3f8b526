import Dialer.Proofs.Resolver.Accounts
import Dialer.Proofs.Resolver.Silence
import Mathlib.Algebra.BigOperators.Group.Finset.Piecewise

/-!
# The books of one cache

Watches in any number, other builders, janitors and whoever else puts into the cache or clears it all
count what they do. A `Books` is a chronicle of all this, with a list of what was done to the cache;
a `Dealing` is one thing that happens. Whatever the order, the books balance (`books_balance`).

Two things are behind it. A result is counted before it is published: in between it stands with its
loop, and is the only difference between what is counted and what is published
(`Chronicle.unpublished`). And each edit of the cache balances by itself (`Edit.size_apply`), so that
all of them do.
-/

namespace Dialer.Resolver

/-- How many sets were published, into all outboxes. -/
def Shared.published (s : Shared) : Nat :=
  (s.outboxes.map (·.size)).sum

/-- How many entries that were given as addresses are none. -/
def Journal.refused (journal : Journal) : Nat :=
  (journal.map (·.deed.refused)).sum

/-- How many results stand at a point, and are not published. -/
def pending : Option Point → Nat
  | some (.found _) => 1
  | _ => 0

theorem length_unpublished (l : Loop) : l.unpublished.length = pending l.point := by
  unfold Loop.unpublished
  split
  · rename_i addresses hpoint
    rw [hpoint]
    rfl
  · rename_i hpoint
    unfold pending
    split
    · rename_i addresses hfound
      exact absurd hfound (hpoint addresses)
    · rfl

/-- Is it none of what publishes or counts without keeping books? -/
def Occurrence.isBooked : Occurrence → Bool
  | .publish _ _ | .elsewhere _ _ => false
  | _ => true

namespace Chronicle

/-- What a watch does when it goes on. -/
def deedsOf (v : Chronicle) (n : Nat) : List Deed :=
  match v.watch? n with
  | none => []
  | some w =>
    if v.points n = none ∧ v.shared.isCancelled w.token then []
    else (Loop.standing w (v.points n)).deeds v.shared

/-- Does a janitor clear the cache when it goes on? -/
def isSwept (v : Chronicle) (n : Nat) : Bool :=
  match v.exchange.janitors[n]? with
  | none => false
  | some j => !v.shared.isCancelled j.token && (j.running && j.rhythm.firesAt ≤ v.shared.now)

/-- What an occurrence does to the cache. -/
def edit? (v : Chronicle) : Occurrence → Option Edit
  | .go n => (v.watch? n).bind fun w => (v.deedsOf n).findSome? (·.edit? w.assignment.key)
  | .sweep n => if v.isSwept n then some .clear else none
  | .put key addresses => some (.put key addresses)
  | .clear => some .clear
  | _ => none

/-- A resolver is built for a target, with an outbox of its own. -/
def build (v : Chronicle) (b : Builder) (t : Target) : Chronicle :=
  match { v.exchange with shared := v.shared.openBox.2 }.build b t v.shared.openBox.1 with
  | .ok (_, x) => { v with exchange := x }
  | .error _ => v

/-- How many results are there, and not published. -/
def unpublished (v : Chronicle) : Nat :=
  ∑ n ∈ Finset.range v.exchange.watches.length, pending (v.points n)

variable {v v' : Chronicle}

/-! ## What one thing changes -/

/-- What is counted between two states is published or waits to be, was refused, or is an edit of the
cache. -/
structure Settles (e : Option Edit) (v v' : Chronicle) : Prop where
  results : v'.shared.metrics.results + (v.shared.published + v.unpublished) =
    v.shared.metrics.results + (v'.shared.published + v'.unpublished)
  dropped : v'.shared.metrics.count .droppedAddresses + v.journal.refused =
    v.shared.metrics.count .droppedAddresses + v'.journal.refused
  edited : Edited e v.shared v'.shared

theorem published_openBox (s : Shared) : s.openBox.2.published = s.published := by
  simp [Shared.published, Shared.openBox, Outbox.size, Outbox.empty]

theorem sum_modify {outboxes : List Outbox} {box : Nat} (hbox : box < outboxes.length)
    (publications : List Publication) :
    ((outboxes.modify box fun o => ⟨publications ++ o.published⟩).map (·.size)).sum =
      publications.length + (outboxes.map (·.size)).sum := by
  induction outboxes generalizing box with
  | nil => cases hbox
  | cons o rest ih =>
      cases box with
      | zero =>
          rw [List.modify_zero_cons, List.map_cons, List.map_cons, List.sum_cons, List.sum_cons]
          simp only [Outbox.size, List.length_append]
          omega
      | succ box =>
          have hrest := ih (Nat.lt_of_succ_lt_succ hbox)
          rw [List.modify_succ_cons, List.map_cons, List.map_cons, List.sum_cons, List.sum_cons,
            hrest]
          omega

theorem sum_update {n count : Nat} (hn : n < count) (points : Nat → Option Point)
    (point : Option Point) :
    (∑ m ∈ Finset.range count, pending (Function.update points n point m)) + pending (points n) =
      (∑ m ∈ Finset.range count, pending (points m)) + pending point := by
  have hmem : n ∈ Finset.range count := Finset.mem_range.mpr hn
  rw [← Finset.add_sum_erase _ _ hmem, ← Finset.add_sum_erase _ (fun m => pending (points m)) hmem,
    Function.update_self]
  -- the points of all other watches are what they were
  have hothers : ∑ m ∈ (Finset.range count).erase n, pending (Function.update points n point m) =
      ∑ m ∈ (Finset.range count).erase n, pending (points m) :=
    Finset.sum_congr rfl fun m hm => by rw [Function.update_of_ne (Finset.ne_of_mem_erase hm)]
  rw [hothers]
  omega

/-- Where no watch goes on, none has another result. -/
theorem unpublished_step (hsound : v.Sound) {o : Occurrence} (hstays : ∀ n, o ≠ .go n) :
    (v.step o).unpublished = v.unpublished ∧ (v.step o).journal = v.journal := by
  have htakes := v.step_takes o hsound.within
  generalize v.step o = v' at htakes ⊢
  cases htakes with
  | acts n w deeds l shared ho => exact absurd ho (hstays n)
  | alters n w phase wanted agenda hwatch hwithin hlooking hstopped hagenda =>
      refine ⟨?_, rfl⟩
      show ∑ m ∈ Finset.range (v.exchange.watches.set n _).length, pending (v.points m) = _
      rw [List.length_set]
      rfl
  | begins options target w agenda ho hassignment hnumber hbox htoken hphase hagenda =>
      refine ⟨?_, rfl⟩
      have hresting : v.points v.exchange.watches.length = none :=
        hsound.resting _ (List.getElem?_eq_none (Nat.le_refl _))
      show ∑ m ∈ Finset.range (v.exchange.watches ++ [w]).length, pending (v.points m) = _
      rw [List.length_append, List.length_singleton, Finset.sum_range_succ, hresting]
      rfl
  | aside v' haside =>
      refine ⟨?_, haside.journal⟩
      unfold unpublished
      rw [haside.watches, haside.points]

/-- Where no watch goes on and nothing is published, the metrics and the cache are all there is. -/
theorem settles_of_account {e : Option Edit} (haccount : Account e 0 0 v.shared v'.shared)
    (hpublished : v'.shared.published = v.shared.published)
    (hunpublished : v'.unpublished = v.unpublished ∧ v'.journal = v.journal) : Settles e v v' where
  results := by rw [haccount.results, hpublished, hunpublished.1, Nat.add_zero]
  dropped := by rw [haccount.dropped, hunpublished.2, Nat.add_zero]
  edited := haccount.edited

/-- A watch goes on by a step of its loop, or does nothing. -/
theorem go_cases (v : Chronicle) (n : Nat) :
    (v.edit? (.go n) = none ∧ (v.go n).shared = v.shared ∧ (v.go n).unpublished = v.unpublished ∧
      (v.go n).journal = v.journal) ∨
    ∃ w, v.watch? n = some w ∧
      v.edit? (.go n) = ((Loop.standing w (v.points n)).deeds v.shared).findSome?
        (·.edit? w.assignment.key) ∧
      v.go n = v.carry n w.assignment ((Loop.standing w (v.points n)).deeds v.shared)
        ((Loop.standing w (v.points n)).step v.shared).1
        ((Loop.standing w (v.points n)).step v.shared).2 := by
  cases hwatch : v.watch? n with
  | none => exact .inl ⟨by simp [edit?, hwatch], by simp [go, hwatch]⟩
  | some w =>
      by_cases hstops : v.points n = none ∧ v.shared.isCancelled w.token = true
      · have hgo : v.go n = v.place n { w with phase := .stopped } := by simp [go, hwatch, hstops]
        refine .inl ⟨by simp [edit?, deedsOf, hwatch, hstops], ?_⟩
        rw [hgo]
        refine ⟨rfl, ?_, rfl⟩
        show ∑ m ∈ Finset.range (v.exchange.watches.set n _).length, pending (v.points m) = _
        rw [List.length_set]
        rfl
      · refine .inr ⟨w, rfl, ?_, ?_⟩
        · simp only [edit?, deedsOf, hwatch, Option.bind_some, if_neg hstops]
        · simp only [go, hwatch, if_neg hstops]

/-- **A watch settles what it does.** -/
theorem settles_go (hsound : v.Sound) (n : Nat) : Settles (v.edit? (.go n)) v (v.go n) := by
  rcases v.go_cases n with ⟨hedit, hshared, hsame⟩ | ⟨w, hwatch, hedit, hgo⟩
  · rw [hedit]
    exact settles_of_account (account_aside _ (by rw [hshared]) (by rw [hshared]))
      (by rw [hshared]) hsame
  · obtain ⟨-, hassignment, -, hbox⟩ := standing_keeps w (v.points n)
    generalize hloop : Loop.standing w (v.points n) = l at hedit hgo hassignment hbox
    have hpoint : l.point = v.points n := by rw [← hloop, standing_point]
    have hcounted := l.step_counted v.shared
    have htold := l.step_told v.shared
    rw [hassignment] at hcounted
    rw [hassignment, hbox] at htold
    rw [hedit, hgo]
    constructor
    · -- a result of the loop is a set more that is published, or that waits to be
      have hacts := (l.step_acts v.shared).results_eq v.shared.now
      rw [length_unpublished, length_unpublished, hpoint] at hacts
      have hwaiting := sum_update (lt_of_watch? hwatch) v.points (l.step v.shared).1.point
      have hpublished := sum_modify (hsound.boxed n w hwatch)
        ((l.deeds v.shared).filterMap (·.publication? v.shared.now))
      rw [← htold.outboxes] at hpublished
      show (l.step v.shared).2.metrics.results + _ = v.shared.metrics.results +
        ((l.step v.shared).2.published + ∑ m ∈ Finset.range (v.exchange.watches.set n _).length,
          pending (Function.update v.points n (l.step v.shared).1.point m))
      rw [hcounted.results, List.length_set]
      unfold Shared.published unpublished
      omega
    · have hrefused : Journal.refused
          ((l.deeds v.shared).map (⟨n, w.assignment, v.shared.now, ·⟩) ++ v.journal) =
            ((l.deeds v.shared).map (·.refused)).sum + v.journal.refused := by
        simp [Journal.refused, List.map_append, List.sum_append, List.map_map, Function.comp_def]
      show (l.step v.shared).2.metrics.count .droppedAddresses + v.journal.refused =
        v.shared.metrics.count .droppedAddresses + Journal.refused
          ((l.deeds v.shared).map (⟨n, w.assignment, v.shared.now, ·⟩) ++ v.journal)
      rw [hcounted.dropped, hrefused, Nat.add_assoc]
    · exact hcounted.edited

/-- A janitor settles the entries that it removes. -/
theorem settles_sweep (hsound : v.Sound) (n : Nat) :
    Settles (v.edit? (.sweep n)) v (v.step (.sweep n)) := by
  have hsame := unpublished_step hsound (o := .sweep n) fun _ => Occurrence.noConfusion
  have hstep : (v.step (.sweep n)).shared = (v.exchange.run (.janitor n)).shared := rfl
  have hidle (hedit : v.edit? (.sweep n) = none) (hrun : (v.step (.sweep n)).shared = v.shared) :
      Settles (v.edit? (.sweep n)) v (v.step (.sweep n)) := by
    rw [hedit]
    exact settles_of_account (account_aside _ (by rw [hrun]) (by rw [hrun])) (by rw [hrun]) hsame
  rcases run_janitor v.exchange n with ⟨hjanitor, hrun⟩ | ⟨j, hjanitor, hrun⟩
  · exact hidle (by simp [edit?, isSwept, hjanitor]) (by rw [hstep, hrun]; rfl)
  · rw [hrun] at hstep
    rcases janitor_run j v.exchange.shared with ⟨hcancelled, hrun⟩ | ⟨hfree, hrunning, hdue, hrun⟩ |
      ⟨hfree, hwaits, hrun⟩
    · exact hidle (by simp [edit?, isSwept, hjanitor, shared, hcancelled]) (by rw [hstep, hrun]; rfl)
    · have hedit : v.edit? (.sweep n) = some .clear := by
        simp [edit?, isSwept, hjanitor, shared, hfree, hrunning, hdue]
      rw [hedit]
      rw [hrun] at hstep
      have hclear := account_clear v.shared
      refine settles_of_account ?_ (by rw [hstep]; rfl) hsame
      rw [hstep]
      exact ⟨hclear.results, hclear.dropped, hclear.edited.cache, hclear.edited.clears,
        hclear.edited.gauge⟩
    · refine hidle ?_ (by rw [hstep, hrun]; rfl)
      simp only [edit?, isSwept, hjanitor, ite_eq_right_iff, Bool.and_eq_true]
      rintro ⟨-, hrunning, hdue⟩
      exact absurd ⟨hrunning, of_decide_eq_true hdue⟩ hwaits

theorem published_of_outboxes {s s' : Shared} (h : s'.outboxes = s.outboxes) :
    s'.published = s.published := by
  rw [Shared.published, h, Shared.published]

/-- What changes no readings and no cache, and publishes nothing. -/
structure Untouched (s s' : Shared) : Prop where
  metrics : s'.metrics = s.metrics
  cache : s'.cache = s.cache
  published : s'.published = s.published

theorem untouched_of_unmoved {n : Nat} (h : Unmoved n v v') : Untouched v.shared v'.shared := by
  obtain ⟨tokens, agenda, hshared⟩ := h.shared
  rw [hshared]
  exact ⟨rfl, rfl, rfl⟩

theorem untouched_close (v : Chronicle) (n : Nat) :
    Untouched v.shared (v.step (.close n)).shared := by
  cases hwatch : v.watch? n with
  | none =>
      rw [close_none hwatch]
      exact ⟨rfl, rfl, rfl⟩
  | some w =>
      rw [close_eq hwatch]
      exact untouched_of_unmoved (unmoved_cancel n v w.token).1

theorem untouched_watch (v : Chronicle) (options : LookupOptions) (target : Target) :
    Untouched v.shared (v.step (.watch options target)).shared := by
  rw [step_watch]
  exact ⟨rfl, rfl, published_openBox v.shared⟩

theorem untouched_of_exchange {o : Occurrence} {x : Exchange}
    (hstep : v.step o = { v with exchange := x }) (h : Untouched v.exchange.shared x.shared) :
    Untouched v.shared (v.step o).shared := by
  rw [hstep]
  exact h

theorem untouched_janitor (v : Chronicle) (every : Duration) (token : Token) :
    Untouched v.shared (v.step (.janitor every token)).shared := by
  refine untouched_of_exchange (x := (v.exchange.janitor? every token).getD v.exchange) rfl ?_
  unfold Exchange.janitor?
  cases Rhythm.start? every v.exchange.now with
  | none => exact ⟨rfl, rfl, rfl⟩
  | some rhythm => exact ⟨rfl, rfl, published_of_outboxes rfl⟩

theorem settles_of_untouched (hsound : v.Sound) {o : Occurrence} (hedit : v.edit? o = none)
    (hstays : ∀ n, o ≠ .go n) (h : Untouched v.shared (v.step o).shared) :
    Settles (v.edit? o) v (v.step o) := by
  rw [hedit]
  exact settles_of_account (account_aside _ h.metrics h.cache) h.published
    (unpublished_step hsound hstays)

/-- **Whatever occurs settles what it does,** unless someone publishes or counts without keeping
books. -/
theorem settles_step (hsound : v.Sound) {o : Occurrence} (ho : o.isBooked = true) :
    Settles (v.edit? o) v (v.step o) := by
  cases o with
  | go n => exact settles_go hsound n
  | sweep n => exact settles_sweep hsound n
  | request n =>
      exact settles_of_untouched hsound rfl (fun _ => Occurrence.noConfusion)
        (untouched_of_unmoved (unmoved_request v n).1)
  | close n =>
      exact settles_of_untouched hsound rfl (fun _ => Occurrence.noConfusion)
        (untouched_close v n)
  | cancel token =>
      exact settles_of_untouched hsound rfl (fun _ => Occurrence.noConfusion)
        (untouched_of_unmoved (unmoved_cancel 0 v token).1)
  | watch options target =>
      exact settles_of_untouched hsound rfl (fun _ => Occurrence.noConfusion)
        (untouched_watch v options target)
  | janitor every token =>
      exact settles_of_untouched hsound rfl (fun _ => Occurrence.noConfusion)
        (untouched_janitor v every token)
  | mint above =>
      refine settles_of_untouched hsound rfl (fun _ => Occurrence.noConfusion) ?_
      cases above with
      | none => exact ⟨rfl, rfl, rfl⟩
      | some above => exact ⟨rfl, rfl, rfl⟩
  | box =>
      exact settles_of_untouched hsound rfl (fun _ => Occurrence.noConfusion)
        ⟨rfl, rfl, published_openBox v.shared⟩
  | publish box addresses => cases ho
  | put key addresses =>
      exact settles_of_account (account_store v.shared key addresses) rfl
        (unpublished_step hsound fun _ => Occurrence.noConfusion)
  | clear =>
      exact settles_of_account (account_clear v.shared) rfl
        (unpublished_step hsound fun _ => Occurrence.noConfusion)
  | pass now =>
      refine settles_of_untouched hsound rfl (fun _ => Occurrence.noConfusion) ?_
      simp only [step]
      split <;> exact ⟨rfl, rfl, rfl⟩
  | jump now =>
      refine settles_of_untouched hsound rfl (fun _ => Occurrence.noConfusion) ?_
      simp only [step]
      split <;> exact ⟨rfl, rfl, rfl⟩
  | retire =>
      exact settles_of_untouched hsound rfl (fun _ => Occurrence.noConfusion) ⟨rfl, rfl, rfl⟩
  | elsewhere metrics directory => cases ho

/-- The builders that come with the program. -/
inductive Usual : Builder → Prop
  | passthrough : Usual .passthrough
  | dns (options : LookupOptions) : Usual (.dns options)

/-- A set that is produced is counted and published at once. -/
theorem settles_produce (hsound : v.Sound) (source : Source) (addresses : List Address) :
    (v.apply fun s => s.openBox.2.produce source s.openBox.1 addresses).Sound ∧
      Settles none v (v.apply fun s => s.openBox.2.produce source s.openBox.1 addresses) := by
  have hsound' := sound_run hsound [.box, .elsewhere (v.shared.metrics.tally (.resolutions source))
    v.shared.directory, .publish v.shared.outboxes.length addresses]
  rw [run_offer hsound] at hsound'
  refine ⟨hsound', ?_⟩
  have hcounted := account_resolution v.shared source
  have hpublished : (v.shared.openBox.2.produce source v.shared.openBox.1 addresses).published =
      1 + v.shared.published := by
    have hroom : v.shared.openBox.1 < v.shared.openBox.2.outboxes.length := by
      show v.shared.outboxes.length < (v.shared.outboxes ++ [Outbox.empty]).length
      rw [List.length_append]
      exact Nat.lt_succ_self _
    have hsum := sum_modify hroom [⟨v.shared.now, addresses⟩]
    exact hsum.trans (congrArg (1 + ·) (published_openBox v.shared))
  constructor
  · show (v.shared.metrics.tally (.resolutions source)).results + (v.shared.published + v.unpublished)
      = v.shared.metrics.results +
        ((v.shared.openBox.2.produce source v.shared.openBox.1 addresses).published + v.unpublished)
    rw [hpublished, Metrics.results_resolution]
    omega
  · show (v.shared.metrics.tally (.resolutions source)).count .droppedAddresses + v.journal.refused =
      v.shared.metrics.count .droppedAddresses + v.journal.refused
    rw [hcounted.dropped, Nat.add_zero]
  · exact ⟨hcounted.edited.cache, hcounted.edited.clears, hcounted.edited.gauge⟩

/-- **A builder settles what it publishes.** -/
theorem settles_build (hsound : v.Sound) {b : Builder} (hb : Usual b) (t : Target) :
    (v.build b t).Sound ∧ Settles none v (v.build b t) := by
  have hwatched (options : LookupOptions) : (v.step (.watch options t)).Sound ∧
      Settles none v (v.step (.watch options t)) :=
    ⟨sound_step hsound _, settles_step hsound (o := .watch options t) rfl⟩
  cases hb with
  | passthrough => exact settles_produce hsound .passthrough [⟨t.endpoint⟩]
  | dns options =>
      unfold build Exchange.build
      cases hliteral : t.literalAddress? with
      | some address => exact settles_produce hsound .literal [address]
      | none => exact hwatched options

end Chronicle

/-! ## All of it -/

/-- A chronicle, and what was done to its cache, the latest first. -/
structure Books where
  chronicle : Chronicle
  edits : List Edit

/-- What may happen to one cache and to all that is counted around it. -/
inductive Dealing where
  | occurs (o : Occurrence) (booked : o.isBooked = true)
  /-- A builder that comes with the program makes a resolver. -/
  | builds (b : Builder) (usual : Chronicle.Usual b) (target : Target)
  /-- Something else is counted. -/
  | counts (m : Metric) (apart : m.isOfResolution = false)
  /-- The backends will answer otherwise. -/
  | answers (directory : Directory)

namespace Books

def start (directory : Directory) : Books :=
  ⟨.start directory, []⟩

def step (b : Books) : Dealing → Books
  | .occurs o _ => ⟨b.chronicle.step o, (b.chronicle.edit? o).toList ++ b.edits⟩
  | .builds builder _ target => { b with chronicle := b.chronicle.build builder target }
  | .counts m _ =>
    let s := b.chronicle.shared
    { b with chronicle := b.chronicle.step (.elsewhere (s.metrics.tally m) s.directory) }
  | .answers directory =>
    { b with chronicle := b.chronicle.step (.elsewhere b.chronicle.shared.metrics directory) }

def run (dealings : List Dealing) (b : Books) : Books :=
  dealings.foldl step b

theorem exists_run {occurrences : List Occurrence} (hbooked : ∀ o ∈ occurrences, o.isBooked = true)
    (b : Books) :
    ∃ dealings, (run dealings b).chronicle = Chronicle.run occurrences b.chronicle := by
  induction occurrences generalizing b with
  | nil => exact ⟨[], rfl⟩
  | cons o occurrences ih =>
      let d : Dealing := .occurs o (hbooked o List.mem_cons_self)
      obtain ⟨dealings, hrun⟩ := ih (fun o' ho' => hbooked o' (List.mem_cons_of_mem o ho')) (b.step d)
      exact ⟨d :: dealings, hrun⟩

/-- What holds of the books at any time. -/
structure Balanced (b : Books) : Prop where
  sound : b.chronicle.Sound
  results : b.chronicle.shared.metrics.results =
    b.chronicle.shared.published + b.chronicle.unpublished
  dropped : b.chronicle.shared.metrics.count .droppedAddresses = b.chronicle.journal.refused
  gauge : ∀ entries, b.chronicle.shared.metrics.reading? .cacheEntries = some entries →
    entries = b.chronicle.shared.cache.size
  clears : b.chronicle.shared.metrics.count .cacheClears + b.chronicle.shared.cache.size =
    Edit.arrivals b.edits
  cache : Edit.replay b.edits = b.chronicle.shared.cache

variable {b : Books}

theorem balanced_start (directory : Directory) : (start directory).Balanced where
  sound := Chronicle.sound_start directory
  results := rfl
  dropped := rfl
  gauge := fun _ h => by cases h
  clears := rfl
  cache := rfl

/-- What settles keeps the balance. -/
theorem balanced_of_settles (h : b.Balanced) {v : Chronicle} {e : Option Edit} (hsound : v.Sound)
    (hsettles : Chronicle.Settles e b.chronicle v) : Balanced ⟨v, e.toList ++ b.edits⟩ where
  sound := hsound
  results := by
    have hcounted := hsettles.results
    have hbefore := h.results
    dsimp only
    omega
  dropped := by
    have hcounted := hsettles.dropped
    have hbefore := h.dropped
    dsimp only
    omega
  gauge := by
    intro entries hshown
    have hgauge := hsettles.edited.gauge
    have hcache := hsettles.edited.cache
    cases e with
    | none =>
        have hbefore := h.gauge entries (hgauge.symm.trans hshown)
        exact hbefore.trans (congrArg AddressCache.size hcache.symm)
    | some e => exact (Option.some.inj (hgauge.symm.trans hshown)).symm
  clears := by
    have hclears := hsettles.edited.clears
    have hcache := hsettles.edited.cache
    have hbefore := h.clears
    cases e with
    | none =>
        rw [hclears, hcache]
        exact hbefore
    | some e =>
        -- what an edit removes and leaves is what there was and what it brings
        have hbalance := e.size_apply b.chronicle.shared.cache
        show _ = Edit.arrivals (e :: b.edits)
        rw [hclears, hcache, Edit.arrivals, h.cache]
        simp only [Option.elim_some]
        omega
  cache := by
    have hcache := hsettles.edited.cache
    cases e with
    | none => exact h.cache.trans hcache.symm
    | some e =>
        show e.apply (Edit.replay b.edits) = v.shared.cache
        rw [h.cache, hcache, Option.elim_some]

/-- **Whatever is dealt with, the books stay balanced.** -/
theorem balanced_step (h : b.Balanced) (d : Dealing) : (b.step d).Balanced := by
  cases d with
  | occurs o hbooked =>
      exact balanced_of_settles h (Chronicle.sound_step h.sound o)
        (Chronicle.settles_step h.sound hbooked)
  | builds builder husual target =>
      obtain ⟨hsound, hsettles⟩ := Chronicle.settles_build h.sound husual target
      exact balanced_of_settles h hsound hsettles
  | counts m hapart =>
      let s := b.chronicle.shared
      let o := Occurrence.elsewhere (s.metrics.tally m) s.directory
      have hsettles : Chronicle.Settles none b.chronicle (b.chronicle.step o) :=
        Chronicle.settles_of_account (account_elsewhere s hapart s.directory) rfl ⟨rfl, rfl⟩
      exact balanced_of_settles h (Chronicle.sound_step h.sound o) hsettles
  | answers directory =>
      let o := Occurrence.elsewhere b.chronicle.shared.metrics directory
      have hsettles : Chronicle.Settles none b.chronicle (b.chronicle.step o) :=
        Chronicle.settles_of_account (account_aside _ rfl rfl) rfl ⟨rfl, rfl⟩
      exact balanced_of_settles h (Chronicle.sound_step h.sound o) hsettles

/-- Do all tasks wait? -/
abbrev Waits (b : Books) : Prop :=
  b.chronicle.Rests

theorem balanced_run (h : b.Balanced) (dealings : List Dealing) : (run dealings b).Balanced := by
  induction dealings generalizing b with
  | nil => exact h
  | cons d dealings ih => exact ih (balanced_step h d)

theorem unpublished_of_waits (h : b.Waits) : b.chronicle.unpublished = 0 :=
  Finset.sum_eq_zero fun n _ => by rw [h n]; rfl

theorem waits_of_watches (h : b.Balanced)
    (hpoints : ∀ n < b.chronicle.exchange.watches.length, b.chronicle.points n = none) :
    b.Waits := by
  intro n
  by_cases hn : n < b.chronicle.exchange.watches.length
  · exact hpoints n hn
  · exact h.sound.resting n (List.getElem?_eq_none (Nat.le_of_not_lt hn))

/-- An exchange that settles is dealt with in turns, behind which all tasks wait again. -/
theorem exists_run_settle (hwaits : b.Waits) :
    ∃ dealings, (run dealings b).chronicle.exchange = b.chronicle.exchange.settle ∧
      (run dealings b).Waits := by
  obtain ⟨v, ⟨occurrences, hturns, hrun⟩, hexchange, hpoints⟩ := Chronicle.plays_settle hwaits
  have hbooked : ∀ o ∈ .retire :: occurrences, o.isBooked = true := by
    intro o ho
    rcases List.mem_cons.mp ho with rfl | hturn
    · rfl
    · cases hturns o hturn <;> rfl
  obtain ⟨dealings, hdealt⟩ := exists_run hbooked b
  refine ⟨dealings, ?_, ?_⟩
  · rw [hdealt]
    exact (congrArg _ hrun).trans hexchange
  · intro n
    rw [hdealt]
    exact (congrFun ((congrArg _ hrun).trans hpoints) n).trans (hwaits n)

/-- **The books balance.** Whatever happens in whatever order, at any moment at which all tasks wait
as many sets have been published as were produced by the four sources and as lookups have failed.
What was dropped are the entries that are no IP in the answers that were taken; the gauge, once
touched, is the number of entries in the cache; and the entries that were cleared and those that are
left are the puts under a key that was absent at that moment. -/
theorem books_balance (directory : Directory) (dealings : List Dealing) :
    let b := run dealings (start directory)
    let s := b.chronicle.shared
    (b.Waits → s.metrics.results = s.published) ∧
    s.metrics.count .droppedAddresses = b.chronicle.journal.refused ∧
    (∀ entries, s.metrics.reading? .cacheEntries = some entries → entries = s.cache.size) ∧
    s.metrics.count .cacheClears + s.cache.size = Edit.arrivals b.edits ∧
    s.cache = Edit.replay b.edits := by
  intro b s
  have hbalanced : b.Balanced := balanced_run (balanced_start directory) dealings
  refine ⟨?_, hbalanced.dropped, hbalanced.gauge, hbalanced.clears, hbalanced.cache.symm⟩
  intro hwaits
  have hresults := hbalanced.results
  rw [unpublished_of_waits hwaits, Nat.add_zero] at hresults
  exact hresults

/-- Of two entries in an answer one is no IP; the set is published, and so are a pass-through endpoint
and an address that stands in its target. One of the puts replaces an entry, and two entries are
cleared. -/
theorem books_balance_cleared :
    let svc : Target := ⟨"dns", none, "svc:80", "svc", "80"⟩
    let b := run [.builds .passthrough .passthrough svc,
        .builds (.dns .usual) (.dns .usual) ⟨"dns", none, "10.0.0.9:80", "10.0.0.9", "80"⟩,
        .builds (.dns .usual) (.dns .usual) svc,
        .occurs (.go 0) rfl, .occurs (.go 0) rfl, .occurs (.go 0) rfl, .occurs (.go 0) rfl,
        .occurs (.put "svc:80" []) rfl, .occurs (.put "other" []) rfl, .occurs .clear rfl,
        .occurs (.put "other" []) rfl]
      (start ⟨[("svc", [⟨.zero, .ips ["10.0.0.1", "junk"]⟩])]⟩)
    let s := b.chronicle.shared
    s.metrics.results = s.published ∧ s.published = 3 ∧
      s.metrics.count .droppedAddresses = b.chronicle.journal.refused ∧
      b.chronicle.journal.refused = 1 ∧
      s.metrics.count .cacheClears + s.cache.size = Edit.arrivals b.edits ∧
      Edit.arrivals b.edits = 3 := by
  obtain ⟨hresults, hdropped, -, hclears, -⟩ := books_balance
    ⟨[("svc", [⟨.zero, .ips ["10.0.0.1", "junk"]⟩])]⟩
    [.builds .passthrough .passthrough ⟨"dns", none, "svc:80", "svc", "80"⟩,
      .builds (.dns .usual) (.dns .usual) ⟨"dns", none, "10.0.0.9:80", "10.0.0.9", "80"⟩,
      .builds (.dns .usual) (.dns .usual) ⟨"dns", none, "svc:80", "svc", "80"⟩,
      .occurs (.go 0) rfl, .occurs (.go 0) rfl, .occurs (.go 0) rfl, .occurs (.go 0) rfl,
      .occurs (.put "svc:80" []) rfl, .occurs (.put "other" []) rfl, .occurs .clear rfl,
      .occurs (.put "other" []) rfl]
  refine ⟨hresults (waits_of_watches (balanced_run (balanced_start _) _) ?_), ?_, hdropped, ?_,
    hclears, ?_⟩
  · decide +kernel
  · decide +kernel
  · decide +kernel
  · decide +kernel

end Books

end Dialer.Resolver
