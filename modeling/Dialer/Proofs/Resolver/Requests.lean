import Dialer.Proofs.Resolver.Vigil

/-!
# Requests and cycles

Requests that are owed a cycle sit in two places: a parked loop is called, and at any other time one
request is kept. Steps turn what is owed into cycles, one for one (`begun_owed_run`). So how many
cycles there will be without another request is settled before they begin, and so is that the loop
gets there: it is busy for a bounded number of steps (`effort_busy_run`).

A request that finds a loop in a cycle is kept, with all others that do; the cycle that begins next
serves them all. A parked loop has both places free, and takes two requests for two.
-/

namespace Dialer.Resolver.Vigil

variable {v : Vigil}

/-- No requests are made. -/
def Quiet (events : List Event) : Prop :=
  ∀ e ∈ events, e ≠ .request

/-- For how many steps the loop goes on by itself. -/
def busy : List Event → Vigil → Nat
  | [], _ => 0
  | e :: events, v =>
    (match e with
      | .go => (v.loop.isActive v.shared).toNat
      | _ => 0) + busy events (v.step e)

/-- Without requests the cycles begun and those owed stay as many. -/
theorem begun_owed_run (h : v.Sound) {events : List Event} (hquiet : Quiet events) :
    (run events v).begun.length + (run events v).loop.owed = v.begun.length + v.loop.owed := by
  induction events generalizing v with
  | nil => rfl
  | cons e events ih =>
      have hrest := ih (sound_step h e) fun e he => hquiet e (List.mem_cons_of_mem _ he)
      have hfirst : (v.step e).begun.length + (v.step e).loop.owed =
          v.begun.length + v.loop.owed := by
        cases e with
        | request => exact absurd rfl (hquiet .request List.mem_cons_self)
        | go => exact begun_owed_go h
        | elsewhere after =>
            obtain ⟨hbegun, hloop, -⟩ := v.elsewhere_keeps after
            rw [hbegun, hloop]
      exact hrest.trans hfirst

theorem effort_busy_run (h : v.Sound) {events : List Event} (hquiet : Quiet events) :
    (run events v).loop.effort + busy events v ≤ v.loop.effort := by
  induction events generalizing v with
  | nil => exact Nat.le_refl _
  | cons e events ih =>
      have hrest := ih (sound_step h e) fun e he => hquiet e (List.mem_cons_of_mem _ he)
      cases e with
      | request => exact absurd rfl (hquiet .request List.mem_cons_self)
      | go =>
          have hfirst := h.go_moves.effort_le
          show (run events v.go).loop.effort +
            ((v.loop.isActive v.shared).toNat + busy events v.go) ≤ _
          have hrest : (run events v.go).loop.effort + busy events v.go ≤ v.go.loop.effort := hrest
          omega
      | elsewhere after =>
          show (run events (v.step (.elsewhere after))).loop.effort +
            (0 + busy events (v.step (.elsewhere after))) ≤ _
          rw [(v.elsewhere_keeps after).2.1] at hrest
          omega

theorem Sound.goes_on (h : v.Sound) (hparked : ¬ v.IsParked) :
    v.loop.isActive v.shared = true ∨ v.loop.waits v.shared = true := by
  have hrunning := h.running
  unfold IsParked at hparked
  by_cases hwaits : v.loop.waits v.shared = true
  · exact .inr hwaits
  · exact .inl (by simp [Loop.isActive, hparked, hrunning, hwaits])

theorem Sound.owed_of_parked (h : v.Sound) (hparked : v.IsParked) : v.loop.owed = 0 := by
  have hwanted := h.parked hparked
  unfold IsParked at hparked
  simp [Loop.owed, hparked, hwanted]

/-- A parked loop has published what each of its cycles found. -/
theorem Sound.settled (h : v.Sound) (hparked : v.IsParked) :
    v.results.length = v.begun.length ∧ v.published = v.results := by
  unfold IsParked at hparked
  have hpoint : v.loop.point = none := Loop.point_eq_none (by simp [hparked])
  have hcycles := h.cycles
  have houtcome := h.outcome
  have hseeks : v.loop.seeks = false := by simp [Loop.seeks, hpoint, hparked]
  have hnothing : v.loop.unpublished = [] := by simp [Loop.unpublished, hpoint]
  rw [hseeks] at hcycles
  rw [hnothing] at houtcome
  exact ⟨hcycles.symm, houtcome.symm⟩

/-- The last cycle of a parked loop began behind the last request. -/
theorem Sound.served (h : v.Sound) (hparked : v.IsParked) (hsome : 0 < v.requests) :
    v.begun.head? = some v.requests := by
  have hmet := h.met (h.owed_of_parked hparked)
  cases hbegun : v.begun with
  | nil =>
      rw [hbegun] at hmet
      exact absurd hmet (Nat.ne_of_lt hsome)
  | cons last before =>
      rw [hbegun] at hmet
      exact congrArg some hmet

/-- A parked watch of an exchange has published, and not more often than it was requested. -/
theorem size_of_parked {x y : Exchange} (a : Assignment) {token : Token} {box count : Nat}
    (htoken : x.shared.isCancelled token = false) (hbox : x.shared.outboxes[box]? = some .empty)
    (hcourse : Course x.watches.length token box (x.watch a token box).2 count y) {w : Watch}
    (hwatch : y.watches[x.watches.length]? = some w) (hparked : w.phase = .parked) :
    1 ≤ (y.shared.box box).size ∧ (y.shared.box box).size ≤ count + 1 := by
  obtain ⟨events, hshows, hrequests⟩ := exists_vigil a htoken hbox hcourse
  have hstart := sound_start x.watches.length a htoken hbox
  have hsound := sound_run hstart events
  obtain ⟨-, hsame⟩ := run_keeps hstart events
  generalize run events _ = v at hshows hrequests hsound hsame
  obtain rfl := Option.some.inj (hshows.watch.symm.trans hwatch)
  obtain ⟨hresults, hpublished⟩ := hsound.settled hparked
  have hserved := hsound.served hparked (by omega)
  have hbounded := hsound.bounded
  have hsize : (y.shared.box box).size = v.begun.length := by
    rw [hshows.shared, ← hresults, ← hpublished, published, List.length_map, hsame]
    rfl
  have hbegun : v.begun ≠ [] := by
    intro hnone
    rw [hnone] at hserved
    cases hserved
  have hpositive := List.length_pos_iff.mpr hbegun
  omega

/-- So many cycles follow if there is no other request: no more are begun, and when the loop is
parked, all of them have published a set. Until then the loop goes on or waits for a lookup, and it
goes on for eleven steps at most. -/
def Follow (v : Vigil) (count : Nat) : Prop :=
  ∀ later, Quiet later →
    let v' := run later v
    v'.begun.length ≤ v.begun.length + count ∧
      (v'.IsParked → v'.begun.length = v.begun.length + count ∧
        v'.published.length = v.begun.length + count) ∧
      (¬ v'.IsParked → v'.loop.isActive v'.shared = true ∨ v'.loop.waits v'.shared = true) ∧
      busy later v ≤ 11

theorem follow_owed (h : v.Sound) : v.Follow v.loop.owed := by
  intro later hquiet v'
  have hafter : v'.Sound := sound_run h later
  have hsum : v'.begun.length + v'.loop.owed = _ := begun_owed_run h hquiet
  have heffort := effort_busy_run h hquiet
  have hmost := v.loop.effort_le_eleven
  refine ⟨by omega, fun hparked => ?_, hafter.goes_on, by omega⟩
  have hnone := hafter.owed_of_parked hparked
  obtain ⟨hresults, hpublished⟩ := hafter.settled hparked
  rw [hpublished, hresults]
  omega

/-- **No request is lost.** In every run of a loop that is not cancelled:

* When the loop is parked, its last cycle began behind the last request, and what each of its cycles
  found is published.
* There are not more cycles than requests.
* Whatever number of requests is made within a cycle, exactly one further cycle follows. -/
theorem no_request_lost {s : Shared} {token : Token} {box : Nat} (number : Nat) (a : Assignment)
    (htoken : s.isCancelled token = false) (hbox : s.outboxes[box]? = some .empty)
    (events : List Event) :
    let v := run events (start s number a token box)
    (v.IsParked →
      (0 < v.requests → v.begun.head? = some v.requests) ∧
        v.results.length = v.begun.length ∧ v.published = v.results) ∧
      v.begun.length ≤ v.requests ∧
      (v.loop.inCycle = true → v.begun.headD 0 < v.requests → v.Follow 1) := by
  intro v
  have hsound : v.Sound := sound_run (sound_start number a htoken hbox) events
  refine ⟨fun hparked => ⟨hsound.served hparked, hsound.settled hparked⟩, ?_, ?_⟩
  · have hbounded := hsound.bounded
    omega
  · intro hcycle hlater
    -- the one place for a request is taken, as one came behind the beginning of the cycle
    have howed : v.loop.owed = 1 := by
      have hkept := v.loop.owed_of_inCycle hcycle
      have hwanted := v.loop.watch.wanted.toNat_le
      have hsome : v.loop.owed ≠ 0 := fun hnone => Nat.ne_of_lt hlater (hsound.met hnone)
      omega
    rw [← howed]
    exact follow_owed hsound

/-- A host that nobody knows. -/
def unknownHost : Assignment :=
  ⟨"svc.internal", "svc.internal", "80", .standard, .ofMillis64 1000⟩

/-- Two requests behind the taking of the first: one more cycle, and both sets are published when
the loop is parked again. -/
theorem no_request_lost_midway :
    let s := (Shared.start ⟨[]⟩).openBox.2
    let v := run [.request, .go, .request, .request] (start s 0 unknownHost ⟨[0]⟩ 0)
    let v' := run (List.replicate 8 .go) v
    s.isCancelled ⟨[0]⟩ = false ∧ s.outboxes[0]? = some .empty ∧
      v.loop.inCycle = true ∧ v.begun = [1] ∧ v.requests = 3 ∧ v.Follow 1 ∧
      v'.IsParked ∧ v'.begun = [3, 1] ∧ v'.published = [[], []] := by
  intro s v v'
  have htoken : s.isCancelled ⟨[0]⟩ = false := rfl
  have hbox : s.outboxes[0]? = some .empty := rfl
  obtain ⟨-, -, hfollow⟩ :=
    no_request_lost 0 unknownHost htoken hbox [.request, .go, .request, .request]
  have hcycle : v.loop.inCycle = true ∧ v.begun = [1] ∧ v.requests = 3 := by
    decide +kernel +zetaReduce
  have hafter : v'.IsParked ∧ v'.begun = [3, 1] ∧ v'.published = [[], []] := by
    decide +kernel +zetaReduce
  have hlater : v.begun.headD 0 < v.requests := by simp [hcycle.2]
  exact ⟨htoken, hbox, hcycle.1, hcycle.2.1, hcycle.2.2, hfollow hcycle.1 hlater, hafter⟩

/-! ## Bursts -/

theorem run_requests_full (hphase : v.loop.watch.phase ≠ .parked)
    (hwanted : v.loop.watch.wanted = true) (n : Nat) :
    (run (List.replicate n .request) v).loop = v.loop := by
  induction n generalizing v with
  | zero => rfl
  | succ n ih =>
      have hsame : (v.step .request).loop = v.loop := v.loop.request_full hphase hwanted
      have hrest := @ih (v.step .request) (by rw [hsame]; exact hphase)
        (by rw [hsame]; exact hwanted)
      exact hrest.trans hsame

theorem run_requests_begun (n : Nat) (v : Vigil) :
    (run (List.replicate n .request) v).begun = v.begun := by
  induction n generalizing v with
  | zero => rfl
  | succ n ih => exact ih (v.step .request)

theorem owed_burst (hnone : v.loop.owed = 0) {n : Nat} (hn : 1 ≤ n) :
    (run (List.replicate n .request) v).loop.owed = if v.IsParked ∧ 2 ≤ n then 2 else 1 := by
  obtain ⟨hcalled, hwanted⟩ : v.loop.watch.phase ≠ .called ∧ v.loop.watch.wanted = false := by
    simpa [Loop.owed] using hnone
  obtain ⟨n, rfl⟩ := Nat.exists_eq_add_of_le' hn
  show (run (List.replicate n .request) (v.step .request)).loop.owed = _
  rcases v.loop.request_cases with ⟨hparked, -, hfirst⟩ | ⟨hparked, hidle, hfirst⟩
  · -- the first request calls the loop, so the second finds the place for one free
    have hone : (v.step .request).loop = .ofWatch { v.loop.watch with phase := .called } := hfirst
    cases n with
    | zero =>
        show (v.step .request).loop.owed = _
        simp [hone, Loop.owed, hwanted]
    | succ n =>
        have htwo : ((v.step .request).step .request).loop =
            .ofWatch { v.loop.watch with phase := .called, wanted := true } := by
          show (v.step .request).loop.request = _
          rw [hone]
          rfl
        show (run (List.replicate n .request) ((v.step .request).step .request)).loop.owed = _
        rw [run_requests_full (by simp [htwo]) (by simp [htwo]), htwo]
        simp [Loop.owed, IsParked, hparked]
  · have hone : (v.step .request).loop =
        ⟨{ v.loop.watch with wanted := true }, v.loop.point, hidle⟩ := hfirst
    rw [run_requests_full (by simpa [hone] using hparked) (by simp [hone]), hone]
    simp [Loop.owed, IsParked, hparked, hcalled]

/-- **How many cycles a burst makes.** Of requests that come together while none is pending, a loop
that is not parked makes one cycle. A parked loop makes two of two and more: it takes the first at
once, and the second is kept. -/
theorem burst_cycles {s : Shared} {token : Token} {box : Nat} (number : Nat) (a : Assignment)
    (htoken : s.isCancelled token = false) (hbox : s.outboxes[box]? = some .empty)
    (events : List Event) {n : Nat} (hn : 1 ≤ n)
    (hnone : (run events (start s number a token box)).loop.owed = 0) :
    let v := run events (start s number a token box)
    let v' := run (List.replicate n .request) v
    v'.begun = v.begun ∧ v'.Follow (if v.IsParked ∧ 2 ≤ n then 2 else 1) := by
  intro v v'
  have hsound : v.Sound := sound_run (sound_start number a htoken hbox) events
  refine ⟨run_requests_begun n v, ?_⟩
  rw [← owed_burst hnone hn]
  exact follow_owed (sound_run hsound _)

/-- A loop that was parked behind its first cycle takes two requests for two. -/
theorem burst_cycles_parked :
    let s := (Shared.start ⟨[]⟩).openBox.2
    let v := run (.request :: List.replicate 5 .go) (start s 0 unknownHost ⟨[0]⟩ 0)
    let v' := run (List.replicate 2 .request) v
    s.isCancelled ⟨[0]⟩ = false ∧ s.outboxes[0]? = some .empty ∧ v.IsParked ∧ v.loop.owed = 0 ∧
      v'.begun = [1] ∧ v'.Follow 2 := by
  intro s v v'
  have htoken : s.isCancelled ⟨[0]⟩ = false := rfl
  have hbox : s.outboxes[0]? = some .empty := rfl
  have hrun : v.IsParked ∧ v.loop.owed = 0 ∧ v.begun = [1] := by decide +kernel +zetaReduce
  obtain ⟨hparked, hnone, hone⟩ := hrun
  obtain ⟨hbegun, hfollow⟩ := burst_cycles 0 unknownHost htoken hbox
    (.request :: List.replicate 5 .go) (show 1 ≤ 2 by decide) hnone
  rw [if_pos ⟨hparked, Nat.le_refl 2⟩] at hfollow
  exact ⟨htoken, hbox, hparked, hnone, hbegun.trans hone, hfollow⟩

/-- Two requests to a parked watch that keeps none are followed by two lookups, and each of them
publishes a set. -/
theorem parked_burst_repeats :
    let fresh := ((Exchange.start ⟨[]⟩).apply fun s => s.openBox.2).rootToken
    let x := (fresh.2.watch unknownHost fresh.1 0).2.settle
    let y := (Exchange.requests 0 2 x).settle
    x.watches.map (fun w => (w.phase, (Loop.ofWatch w).owed)) = [(.parked, 0)] ∧
      y.watches.map (fun w => (w.phase, (Loop.ofWatch w).owed)) = [(.parked, 0)] ∧
      x.shared.lookups.length = 1 ∧ (x.shared.box 0).size = 1 ∧
      y.shared.lookups.length = 3 ∧ (y.shared.box 0).size = 3 ∧
      (y.shared.box 0).size ≠ (x.shared.box 0).size + 1 := by
  intro fresh x y
  decide +kernel +zetaReduce

end Dialer.Resolver.Vigil
