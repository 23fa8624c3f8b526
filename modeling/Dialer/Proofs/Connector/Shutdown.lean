import Dialer.Proofs.Connector.Holdings
import Dialer.Proofs.Resolver.Silence

/-!
# A connector that is stopped

All that goes on at a connector stands below the token of its shutdown: the watches and the calls of
connections made before it was stopped, and of those made later, and the janitor. From then on

* a loop that stands between two polls does no more deeds (`fades_run`), and one that was being
  polled stands there three steps later (`left_run`); if none was being polled, nobody writes the
  cache any more (`hushed_run`);
* no attempt is polled again: a call stays as it is until it goes on, and then it is cancelled
  (`visit_run`, `call_ends`);
* a janitor that goes on ends and leaves the cache alone (`sweep_ends`). The first shutdown has
  taken it (`Attended`) and returns then (`join_returns`), and once it has returned nobody clears
  the cache at a time that was set (`overrun_ends`).
-/

namespace Dialer

open Resolver

/-! ## Loops -/

/-- How many steps it takes at most until the loop stands between two polls. -/
def Resolver.Point.left : Option Point → Nat
  | none => 0
  | some (.found _) => 1
  | some .missed => 2
  | some .taken => 3

namespace Resolver.Chronicle

variable {v v' : Chronicle} {n : Nat}

/-- The token that everything stands below is cancelled. -/
structure Shut (v : Chronicle) : Prop where
  cancelled : 0 ∈ v.shared.tokens.cancelled
  below : ∀ n w, v.watch? n = some w → 0 ∈ w.token.lineage

theorem Shut.isCancelled (h : v.Shut) {t : Token} (ht : 0 ∈ t.lineage) :
    v.shared.isCancelled t = true :=
  Cancellations.isCancelled_iff.mpr ⟨0, ht, h.cancelled⟩

theorem Shut.grows (h : v.Shut) (hgrows : Grows v v') : v'.Shut where
  cancelled := hgrows.cancelled 0 h.cancelled
  below n w' hw' := by
    rcases hgrows.watches n w' hw' with ⟨w, hw, htoken, -⟩ | hbegun
    · rw [htoken]
      exact h.below n w hw
    · obtain ⟨mark, hmark, -⟩ := hbegun.token
      rw [hmark]
      simp

theorem left_acts {l l' : Loop} {s : Shared} {deeds : List Deed} (hacts : l.Acts s deeds l')
    (hwithin : l.point ≠ none) : Point.left l'.point ≤ Point.left l.point - 1 := by
  cases hacts with
  | serves hpoint => simp [Point.left, hpoint]
  | misses hpoint => simp [Point.left, hpoint]
  | asks hpoint => simp [Point.left, hpoint]
  | hearsAtOnce hpoint => simp [Point.left, hpoint]
  | failsAtOnce hpoint => simp [Point.left, hpoint]
  | publishes addresses hpoint => simp [Point.left, hpoint]
  | parks hpoint => exact absurd hpoint hwithin
  | takes hpoint => exact absurd hpoint hwithin
  | hears hpoint => exact absurd hpoint hwithin
  | fails hpoint => exact absurd hpoint hwithin
  | stays hpoint => exact absurd hpoint hwithin

/-- A loop that was being polled goes on to where it can be stopped. -/
theorem left_go (hsound : v.Sound) (h : v.Shut) (n : Nat) :
    Point.left ((v.step (.go n)).points n) ≤ Point.left (v.points n) - 1 := by
  show Point.left ((v.go n).points n) ≤ _
  unfold go
  cases hwatch : v.watch? n with
  | none => simp [hsound.resting n hwatch, Point.left]
  | some w =>
      dsimp only
      split
      · rename_i hstops
        show Point.left (v.points n) ≤ _
        simp [hstops.1, Point.left]
      · rename_i hgoes
        have hwithin : v.points n ≠ none := fun hpoint =>
          hgoes ⟨hpoint, h.isCancelled (h.below n w hwatch)⟩
        have hleft := left_acts (Loop.step_acts (Loop.standing w (v.points n)) v.shared)
          (by rwa [standing_point])
        rw [standing_point] at hleft
        simpa only [carry, Function.update_self] using hleft

/-- Nothing moves a loop away from where it can be stopped, and there it does nothing. -/
theorem shut_step (hsound : v.Sound) (h : v.Shut) (n : Nat) (o : Occurrence) :
    Point.left ((v.step o).points n) ≤ Point.left (v.points n) ∧
      (v.points n = none → (v.step o).journal.of n = v.journal.of n) := by
  have htakes := v.step_takes o hsound.within
  generalize v.step o = v' at htakes ⊢
  cases htakes with
  | acts m w deeds l shared ho hwatch hfree hacts htold =>
      have hwithin : v.points m ≠ none := by
        intro hpoint
        have hgoes := hfree hpoint
        rw [h.isCancelled (h.below m w hwatch)] at hgoes
        cases hgoes
      by_cases hm : n = m
      · subst hm
        have hleft := left_acts hacts (by rwa [standing_point])
        rw [standing_point] at hleft
        refine ⟨?_, fun hpoint => absurd hpoint hwithin⟩
        simp only [carry, Function.update_self]
        omega
      · exact ⟨Nat.le_of_eq (congrArg Point.left (Function.update_of_ne hm _ _)),
          fun _ => of_append_ne hm ..⟩
  | alters => exact ⟨Nat.le_refl _, fun _ => rfl⟩
  | begins => exact ⟨Nat.le_refl _, fun _ => rfl⟩
  | aside _ haside =>
      rw [haside.points, haside.journal]
      exact ⟨Nat.le_refl _, fun _ => rfl⟩

theorem left_eq_zero {point : Option Point} : Point.left point = 0 ↔ point = none := by
  rcases point with _ | (_ | _ | _) <;> simp [Point.left]

end Resolver.Chronicle

namespace Office

open Chronicle

variable {config : Config} {byAuthority : Bool} {o : Office} {v v' : Chronicle} {n : Nat}

/-- How a loop has gone on since the end. -/
structure Fades (n : Nat) (v v' : Chronicle) : Prop where
  shut : v'.Shut
  left : Point.left (v'.points n) ≤ Point.left (v.points n)
  journal : v.points n = none → v'.journal.of n = v.journal.of n

theorem Fades.trans {v'' : Chronicle} (h : Fades n v v') (h' : Fades n v' v'') : Fades n v v'' where
  shut := h'.shut
  left := Nat.le_trans h'.left h.left
  journal hpoint := by
    have hpoint' : v'.points n = none := by
      have hle := h.left
      rw [left_eq_zero.mpr hpoint] at hle
      exact left_eq_zero.mp (Nat.le_zero.mp hle)
    exact (h'.journal hpoint').trans (h.journal hpoint)

theorem fades_reaches (hsound : v.Sound) (h : v.Shut)
    (hreaches : Reaches (Ordinary config byAuthority) v v') : Fades n v v' := by
  obtain ⟨occurrences, hordinary, rfl⟩ := hreaches
  refine run_keeps (P := Fades n v) (Ordinary config byAuthority) ?_ hsound hordinary
    ⟨h, Nat.le_refl _, fun _ => rfl⟩
  intro v' occurrence hsound' ho hfades
  obtain ⟨hleft, hjournal⟩ := shut_step hsound' hfades.shut n occurrence
  exact hfades.trans ⟨hfades.shut.grows (grows_step hsound' ho), hleft, hjournal⟩

/-- No loop was being polled at the end. None has done anything since, and the cache has been
cleared at most. -/
structure Hushed (v v' : Chronicle) : Prop where
  shut : v'.Shut
  rests : v'.Rests
  journal : v'.journal = v.journal
  cache : v'.shared.cache = v.shared.cache ∨ v'.shared.cache = .empty

theorem Hushed.trans {v'' : Chronicle} (h : Hushed v v') (h' : Hushed v' v'') : Hushed v v'' where
  shut := h'.shut
  rests := h'.rests
  journal := h'.journal.trans h.journal
  cache := by
    rcases h'.cache with hsame | hempty
    · rw [hsame]
      exact h.cache
    · exact .inr hempty

theorem hushed_step (hsound : v.Sound) (h : v.Shut) (hrests : v.Rests) {occurrence : Occurrence}
    (ho : Ordinary config byAuthority occurrence) : Hushed v (v.step occurrence) := by
  have hshut := h.grows (grows_step hsound ho)
  have htakes := v.step_takes occurrence hsound.within
  generalize v.step occurrence = v' at htakes hshut ⊢
  cases htakes with
  | acts n w deeds l shared _ hwatch hfree hacts htold =>
      -- no loop begins to be polled with its token cancelled
      have hgoes := hfree (hrests n)
      rw [h.isCancelled (h.below n w hwatch)] at hgoes
      cases hgoes
  | alters => exact ⟨hshut, hrests, rfl, .inl rfl⟩
  | begins => exact ⟨hshut, hrests, rfl, .inl rfl⟩
  | aside _ haside =>
      refine ⟨hshut, fun n => ?_, haside.journal, ?_⟩
      · rw [haside.points]
        exact hrests n
      · rcases haside.cache with hsame | hempty | ⟨key, addresses, rfl⟩
        · exact .inl hsame
        · exact .inr hempty
        · exact absurd ho.1 id

theorem hushed_reaches (hsound : v.Sound) (h : v.Shut) (hrests : v.Rests)
    (hreaches : Reaches (Ordinary config byAuthority) v v') : Hushed v v' := by
  obtain ⟨occurrences, hordinary, rfl⟩ := hreaches
  refine run_keeps (P := Hushed v) (Ordinary config byAuthority) ?_ hsound hordinary
    ⟨h, hrests, rfl, .inl rfl⟩
  intro v' occurrence hsound' ho hhushed
  exact hhushed.trans (hushed_step hsound' hhushed.shut hhushed.rests ho)

/-- The connector has been stopped. -/
def Shut (o : Office) : Prop :=
  o.chronicle.Shut

theorem shut_stop (h : o.Sound config byAuthority) (horderly : o.Orderly) :
    (o.step .stop).Shut := by
  have hgrows := grows_errand h .stop
  constructor
  · obtain ⟨agenda, hcancel, -⟩ := cancel_eq o.connector.exchange o.connector.shutdown.origin
    show 0 ∈ (o.connector.exchange.cancel o.connector.shutdown.origin).shared.tokens.cancelled
    rw [hcancel, h.origin]
    exact List.mem_cons_self
  · intro n w' hw'
    obtain ⟨mark, hmark, -⟩ := (orderly_errand h horderly .stop).watches n w' hw'
    rw [hmark]
    simp

end Office

/-- A loop goes on. -/
def Affair.isStepOf (n : Nat) : Affair → Bool
  | .goOn m _ => m == n
  | _ => false

namespace Bureau

open Office Chronicle

variable {config : Config} {byAuthority : Bool} {b : Bureau}

theorem fades_run (hsound : b.office.Sound config byAuthority) (hshut : b.office.Shut)
    (n : Nat) (affairs : List Affair) :
    Fades n b.office.chronicle (run affairs b).office.chronicle := by
  refine (keeps_run (P := fun o => Fades n b.office.chronicle o.chronicle) ?_ hsound
    ⟨hshut, Nat.le_refl _, fun _ => rfl⟩ affairs).2
  intro o e hsound' hfades
  exact hfades.trans (fades_reaches hsound'.chronicle hfades.shut (errand_ordinary hsound' e))

/-- **If no loop was being polled at the end, none does anything any more.** -/
theorem hushed_run (hsound : b.office.Sound config byAuthority) (hshut : b.office.Shut)
    (hrests : b.office.chronicle.Rests) (affairs : List Affair) :
    Hushed b.office.chronicle (run affairs b).office.chronicle := by
  refine (keeps_run (P := fun o => Hushed b.office.chronicle o.chronicle) ?_ hsound
    ⟨hshut, hrests, rfl, .inl rfl⟩ affairs).2
  intro o e hsound' hhushed
  exact hhushed.trans (hushed_reaches hsound'.chronicle hhushed.shut hhushed.rests
    (errand_ordinary hsound' e))

theorem fades_step (hsound : b.office.Sound config byAuthority) (hshut : b.office.Shut)
    (n : Nat) (a : Affair) : Fades n b.office.chronicle (b.step a).office.chronicle :=
  fades_run hsound hshut n [a]

theorem sound_step (hsound : b.office.Sound config byAuthority) (a : Affair) :
    (b.step a).office.Sound config byAuthority :=
  (keeps_step (P := fun _ => True) (fun _ _ _ _ => trivial) hsound trivial a).1

theorem left_goOn (hsound : b.office.Sound config byAuthority) (hshut : b.office.Shut)
    (n : Nat) (answer : LookupAnswer) :
    Point.left ((b.step (.goOn n answer)).office.points n) ≤
      Point.left (b.office.points n) - 1 := by
  have hexpects : (b.office.expect n answer).Sound config byAuthority ∧
      (b.office.expect n answer).Shut ∧
      (b.office.expect n answer).points n = b.office.points n := by
    unfold expect
    split
    · rename_i w hwatch
      have hsound' := sound_errand hsound (.background (.elsewhere b.office.shared.metrics
        (.only w.assignment.host answer)))
      exact ⟨hsound', ⟨hshut.cancelled, hshut.below⟩, rfl⟩
    · exact ⟨hsound, hshut, rfl⟩
  have hleft := left_go hexpects.1.chronicle hexpects.2.1 n
  rw [show (b.office.expect n answer).chronicle.points n = _ from hexpects.2.2] at hleft
  exact hleft

/-- **Three steps are enough for a loop to stand where it can be stopped.** -/
theorem left_run (hsound : b.office.Sound config byAuthority) (hshut : b.office.Shut)
    (n : Nat) (affairs : List Affair) :
    Point.left ((run affairs b).office.points n) ≤
      Point.left (b.office.points n) - affairs.countP (·.isStepOf n) := by
  induction affairs generalizing b with
  | nil => exact Nat.le_refl _
  | cons a affairs ih =>
      have hfades := fades_step hsound hshut n a
      have hrest := ih (sound_step hsound a) hfades.shut
      rw [List.countP_cons]
      have hfirst : Point.left ((b.step a).office.points n) ≤
          Point.left (b.office.points n) - (if a.isStepOf n = true then 1 else 0) := by
        cases a with
        | goOn m answer =>
            by_cases hm : m = n
            · subst hm
              rw [if_pos (show Affair.isStepOf m (.goOn m answer) = true from beq_self_eq_true m)]
              exact left_goOn hsound hshut m answer
            · rw [if_neg (by simpa [Affair.isStepOf] using hm)]
              exact hfades.left
        | _ => exact hfades.left
      exact Nat.le_trans hrest (by omega)

end Bureau

/-! ## Calls -/

theorem Call.cancel_begun (c : Call) (l : Line) : (c.cancel l).1.begun = c.begun := by
  unfold cancel
  cases c.phase <;> rfl

theorem Call.cancel_phase (c : Call) (l : Line) :
    (c.cancel l).1.phase = if c.isOver then c.phase else .over (.error .cancelled) := by
  unfold cancel isOver
  split <;> simp only [*, finish] <;> rfl

/-- How a call ends that nobody polls any more: it has begun no attempt since, and stands where it
stood or has been cancelled. -/
structure Call.Ends (c c' : Call) : Prop where
  begun : c'.begun = c.begun
  phase : c'.phase = c.phase ∨ c.isOver = false ∧ c'.phase = .over (.error .cancelled)

namespace Call.Ends

variable {c c' c'' : Call}

theorem refl (c : Call) : c.Ends c := ⟨rfl, .inl rfl⟩

theorem trans (h : c.Ends c') (h' : c'.Ends c'') : c.Ends c'' where
  begun := h'.begun.trans h.begun
  phase := by
    have hover (hsame : c'.phase = c.phase) : c'.isOver = c.isOver := by
      unfold isOver
      rw [hsame]
    rcases h.phase with hsame | ⟨hgoes, hover'⟩
    · rcases h'.phase with hsame' | ⟨hgoes', hover'⟩
      · exact .inl (hsame'.trans hsame)
      · exact .inr ⟨hover hsame ▸ hgoes', hover'⟩
    · rcases h'.phase with hsame' | ⟨hgoes', -⟩
      · exact .inr ⟨hgoes, hsame'.trans hover'⟩
      · rw [isOver, hover'] at hgoes'
        cases hgoes'

theorem step {l : Line} (hcancelled : l.isCancelled = true) (c : Call) : c.Ends (c.step l).1 := by
  have hstep : c.step l = c.cancel l := if_pos hcancelled
  rw [hstep]
  refine ⟨c.cancel_begun l, ?_⟩
  rw [c.cancel_phase l]
  cases hover : c.isOver with
  | true => exact .inl rfl
  | false => exact .inr ⟨rfl, rfl⟩

end Call.Ends

/-- How a visit ends. -/
structure Visit.Ends (v v' : Visit) : Prop where
  name : v'.name = v.name
  token : v'.token = v.token
  call : v.session.call.Ends v'.session.call

theorem Visit.Ends.refl (v : Visit) : v.Ends v := ⟨rfl, rfl, .refl _⟩

theorem Visit.Ends.trans {v v' v'' : Visit} (h : v.Ends v') (h' : v'.Ends v'') : v.Ends v'' :=
  ⟨h'.name.trans h.name, h'.token.trans h.token, h.call.trans h'.call⟩

namespace Bureau

open Office Chronicle

variable {config : Config} {byAuthority : Bool} {b : Bureau}

/-- The calls of every connection are cancelled. -/
theorem line_isCancelled (horderly : b.office.Orderly) (hshut : b.office.Shut) {v : Visit}
    {c : Connection} (hhost : b.host? v = some c) (draw : Float) :
    (b.line draw c).isCancelled = true := by
  obtain ⟨⟨mark, hmark, -⟩, -⟩ := horderly.connections v.name c (host?_eq_some.mp hhost).1
  refine Chronicle.Shut.isCancelled hshut (t := c.token) ?_
  rw [hmark]
  simp

/-- What becomes of the visits when one of them uses its connection. -/
theorem visits_use (i : Nat) (draw : Float) (f : Session → Line → Session × Line) {j : Nat}
    {v : Visit} (hv : b.visits[j]? = some v) :
    (b.use i draw f).visits[j]? = some v ∨ ∃ c, j = i ∧ b.host? v = some c ∧
      v.session.dropped = false ∧
      (b.use i draw f).visits[j]? = some { v with session := (f v.session (b.line draw c)).1 } := by
  rcases b.use_cases i draw f with hsame | ⟨u, c, hu, hhost, hopen, huse⟩
  · rw [hsame]
    exact .inl hv
  · rw [huse]
    by_cases hj : i = j
    · subst hj
      obtain rfl := Option.some.inj (hu.symm.trans hv)
      exact .inr ⟨c, rfl, hhost, hopen,
        List.getElem?_set_self (List.getElem?_eq_some_iff.mp hu).1⟩
    · exact .inl ((List.getElem?_set_ne hj).trans hv)

theorem length_use (b : Bureau) (i : Nat) (draw : Float) (f : Session → Line → Session × Line) :
    (b.use i draw f).visits.length = b.visits.length := by
  rcases b.use_cases i draw f with hsame | ⟨v, c, -, -, -, huse⟩
  · rw [hsame]
  · rw [huse]
    exact List.length_set ..

/-- A call that begins. -/
def Awaits (v : Visit) : Prop :=
  v.session.call.begun = [] ∧ v.session.call.isOver = false

/-- Visits end, and no attempt of theirs is polled. -/
theorem visit_step (horderly : b.office.Orderly) (hshut : b.office.Shut) (a : Affair) {i : Nat}
    {v : Visit} (hv : b.visits[i]? = some v) :
    ∃ v', (b.step a).visits[i]? = some v' ∧ v.Ends v' := by
  cases a with
  | order e =>
      refine ⟨v, ?_, .refl v⟩
      simp only [step]
      split <;> exact hv
  | overrun n =>
      refine ⟨v, ?_, .refl v⟩
      simp only [step]
      split <;> exact hv
  | place name operation =>
      refine ⟨v, ?_, .refl v⟩
      simp only [step]
      split
      · exact (List.getElem?_append_left (List.getElem?_eq_some_iff.mp hv).1).trans hv
      · exact hv
  | call j draw =>
      rcases visits_use j draw goOn hv with hsame | ⟨c, -, hhost, -, hnew⟩
      · exact ⟨v, hsame, .refl v⟩
      · exact ⟨_, hnew, rfl, rfl, .step (line_isCancelled horderly hshut hhost draw) _⟩
  | hangUp j =>
      rcases visits_use j 0 hangUp hv with hsame | ⟨c, -, -, -, hnew⟩
      · exact ⟨v, hsame, .refl v⟩
      · exact ⟨_, hnew, rfl, rfl, .refl _⟩
  | _ => exact ⟨v, hv, .refl v⟩

/-- A visit that is there later is an old one, or one that has only begun. -/
theorem visit_cases (b : Bureau) (a : Affair) {i : Nat} {v' : Visit}
    (hv : (b.step a).visits[i]? = some v') : i < b.visits.length ∨ Awaits v' := by
  have hold (hlength : (b.step a).visits.length = b.visits.length) :
      i < b.visits.length ∨ Awaits v' := by
    rw [← hlength]
    exact .inl (List.getElem?_eq_some_iff.mp hv).1
  cases a with
  | order e =>
      refine hold ?_
      simp only [step]
      split <;> rfl
  | overrun n =>
      refine hold ?_
      simp only [step]
      split <;> rfl
  | place name operation =>
      simp only [step] at hv
      split at hv
      · rcases mem_append hv with hbefore | ⟨-, rfl⟩
        · exact .inl (List.getElem?_eq_some_iff.mp hbefore).1
        · exact .inr ⟨rfl, rfl⟩
      · exact .inl (List.getElem?_eq_some_iff.mp hv).1
  | call j draw => exact hold (b.length_use j draw goOn)
  | hangUp j => exact hold (b.length_use j 0 hangUp)
  | _ => exact hold rfl

/-- What holds once a connector is stopped. -/
structure Ended (config : Config) (byAuthority : Bool) (b : Bureau) : Prop where
  sound : b.office.Sound config byAuthority
  orderly : b.office.Orderly
  shut : b.office.Shut

theorem Ended.step (h : b.Ended config byAuthority) (a : Affair) :
    (b.step a).Ended config byAuthority := by
  obtain ⟨hsound, horderly⟩ := orderly_step h.sound h.orderly a
  exact ⟨hsound, horderly, (fades_step h.sound h.shut 0 a).shut⟩

theorem Ended.run (h : b.Ended config byAuthority) (affairs : List Affair) :
    (run affairs b).Ended config byAuthority := by
  induction affairs generalizing b with
  | nil => exact h
  | cons a affairs ih => exact ih (h.step a)

/-- **No attempt is polled again, and calls end with a cancellation.** -/
theorem visit_run (h : b.Ended config byAuthority) (affairs : List Affair) {i : Nat} {v : Visit}
    (hv : b.visits[i]? = some v) :
    ∃ v', (run affairs b).visits[i]? = some v' ∧ v.Ends v' := by
  induction affairs generalizing b v with
  | nil => exact ⟨v, hv, .refl v⟩
  | cons a affairs ih =>
      obtain ⟨v', hv', hends⟩ := visit_step h.orderly h.shut a hv
      obtain ⟨v'', hv'', hends'⟩ := ih (h.step a) hv'
      exact ⟨v'', hv'', hends.trans hends'⟩

/-- The same of the calls that began later. -/
theorem visit_later (h : b.Ended config byAuthority) (affairs : List Affair) {i : Nat} {v' : Visit}
    (hlater : b.visits.length ≤ i) (hv' : (run affairs b).visits[i]? = some v') :
    ∃ v, Awaits v ∧ v.Ends v' := by
  induction affairs generalizing b with
  | nil => exact absurd (List.getElem?_eq_some_iff.mp hv').1 (Nat.not_lt.mpr hlater)
  | cons a affairs ih =>
      by_cases hbegun : i < (b.step a).visits.length
      · obtain ⟨v, hv⟩ : ∃ v, (b.step a).visits[i]? = some v :=
          ⟨_, List.getElem?_eq_getElem hbegun⟩
        obtain ⟨v'', hv'', hends⟩ := visit_run (h.step a) affairs hv
        obtain rfl := Option.some.inj (hv''.symm.trans hv')
        exact ⟨v, (b.visit_cases a hv).resolve_left (Nat.not_lt.mpr hlater), hends⟩
      · exact ih (h.step a) (Nat.not_lt.mp hbegun) hv'

/-- **A call that goes on has been cancelled.** -/
theorem call_ends (h : b.Ended config byAuthority) {i : Nat} {v : Visit} {c : Connection}
    (hv : b.visits[i]? = some v) (hhost : b.host? v = some c) (hopen : v.session.dropped = false)
    (hgoes : v.session.call.isOver = false) (draw : Float) :
    ∃ v', (b.step (.call i draw)).visits[i]? = some v' ∧
      v'.session.call.phase = .over (.error .cancelled) := by
  have hstep : (b.step (.call i draw)).visits[i]? =
      some { v with session := (goOn v.session (b.line draw c)).1 } := by
    simp only [step, use, hv, hhost, hopen]
    exact List.getElem?_set_self (List.getElem?_eq_some_iff.mp hv).1
  refine ⟨_, hstep, ?_⟩
  have hcancel : v.session.call.step (b.line draw c) = v.session.call.cancel (b.line draw c) :=
    if_pos (line_isCancelled h.orderly h.shut hhost draw)
  simp only [goOn, hcancel, Call.cancel_phase, hgoes]
  rfl

/-! ## The janitor -/

/-- A janitor that goes on ends, and clears nothing. -/
theorem sweep_ends (h : b.Ended config byAuthority) (n : Nat) :
    (b.step (.sweep n)).shared = b.shared ∧
      ∀ j, (b.step (.sweep n)).connector.exchange.janitors[n]? = some j → j.running = false := by
  have hstep : (b.step (.sweep n)).connector.exchange =
      b.connector.exchange.run (.janitor n) := rfl
  unfold shared
  rw [hstep]
  rcases run_janitor b.connector.exchange n with ⟨hnone, hsame⟩ | ⟨j, hj, hrun⟩
  · rw [hsame]
    refine ⟨rfl, fun j hj => ?_⟩
    rw [hnone] at hj
    cases hj
  · have hcancelled : b.connector.exchange.shared.isCancelled j.token = true := by
      refine Chronicle.Shut.isCancelled h.shut (t := j.token) ?_
      rw [h.orderly.janitors j (List.mem_of_getElem? hj)]
      simp
    have hends : j.run b.connector.exchange.shared =
        ({ j with running := false }, b.connector.exchange.shared) := if_pos hcancelled
    rw [hrun, hends]
    refine ⟨rfl, fun j' hj' => ?_⟩
    rw [List.getElem?_set_self (List.getElem?_eq_some_iff.mp hj).1] at hj'
    exact congrArg Janitor.running (Option.some.inj hj').symm

/-! ## Who waits for it -/

theorem ended_grows {b' : Bureau} (hgrows : Grows b.office.chronicle b'.office.chronicle)
    {taken : Option Nat} (h : b.connector.hasEnded taken = true) :
    b'.connector.hasEnded taken = true := by
  refine Connector.hasEnded_iff.mpr fun n hn j' hj' => ?_
  obtain ⟨j, hj, -, hstays⟩ := hgrows.janitors n j' hj'
  exact hstays (Connector.hasEnded_iff.mp h n hn j hj)

/-- Every janitor is there for the first shutdown to take, later ones find none, and no shutdown has
returned before the janitor it has taken has come to its end. -/
structure Attended (b : Bureau) : Prop where
  slot : b.stoppings = [] → ∀ (n : Nat) (j : Janitor),
    b.connector.exchange.janitors[n]? = some j → b.connector.janitor = some n
  taken : b.stoppings ≠ [] → b.connector.janitor = none
  first : ∀ s, b.stoppings[0]? = some s → ∀ (n : Nat) (j : Janitor),
    b.connector.exchange.janitors[n]? = some j → s.awaits = some n
  later : ∀ (i : Nat) s, b.stoppings[i]? = some s → i ≠ 0 → s.awaits = none
  returned : ∀ (i : Nat) s, b.stoppings[i]? = some s → s.returned = true →
    b.connector.hasEnded s.awaits = true

theorem Attended.grows (h : b.Attended) {b' : Bureau}
    (hgrows : Grows b.office.chronicle b'.office.chronicle)
    (hstoppings : b'.stoppings = b.stoppings)
    (hjanitor : b'.connector.janitor = b.connector.janitor) : b'.Attended := by
  constructor
  case slot =>
    intro hnone n j' hj'
    obtain ⟨j, hj, -⟩ := hgrows.janitors n j' hj'
    rw [hjanitor]
    exact h.slot (hstoppings ▸ hnone) n j hj
  case taken =>
    intro hsome
    rw [hjanitor]
    exact h.taken (hstoppings ▸ hsome)
  case first =>
    intro s hs n j' hj'
    obtain ⟨j, hj, -⟩ := hgrows.janitors n j' hj'
    exact h.first s (hstoppings ▸ hs) n j hj
  case later => exact fun i s hs => h.later i s (hstoppings ▸ hs)
  case returned =>
    exact fun i s hs hreturned => ended_grows hgrows (h.returned i s (hstoppings ▸ hs) hreturned)

theorem janitor_errand (o : Office) {e : Errand} (he : e ≠ .stop) :
    (o.step e).connector.janitor = o.connector.janitor := by
  have hdrop (c : Connector) (name : String) : (c.drop name).janitor = c.janitor := by
    unfold Connector.drop
    split <;> rfl
  cases e with
  | connect name raw =>
      simp only [Office.step]
      split
      · rename_i c hconnect
        obtain ⟨t, builder, policy, connection, made, -, -, hestablish, rfl⟩ :=
          connect_cases hconnect
        obtain ⟨resolver, x, -, -, rfl⟩ := establish_cases hestablish
        exact hdrop { o.connector with exchange := _ } name
      · rfl
  | drop name => exact hdrop o.connector name
  | stop => exact absurd rfl he
  | register => rfl
  | background =>
      simp only [Office.step]
      split <;> rfl
  | _ =>
      simp only [Office.step, withConnection]
      split <;> rfl

/-- Nothing takes the janitor but a shutdown that begins. -/
theorem stoppings_step (b : Bureau) {a : Affair} (hstop : a ≠ .stop) (hjoin : ∀ i, a ≠ .join i) :
    (b.step a).stoppings = b.stoppings ∧ (b.step a).connector.janitor = b.connector.janitor := by
  have huse (i : Nat) (draw : Float) (f : Session → Line → Session × Line) :
      (b.use i draw f).stoppings = b.stoppings ∧
        (b.use i draw f).connector.janitor = b.connector.janitor := by
    rcases b.use_cases i draw f with hsame | ⟨v, c, -, -, -, hused⟩
    · rw [hsame]
      exact ⟨rfl, rfl⟩
    · rw [hused]
      exact ⟨rfl, rfl⟩
  cases a with
  | order e =>
      simp only [step]
      split
      · rename_i horder
        refine ⟨rfl, janitor_errand b.office ?_⟩
        rintro rfl
        cases horder
      · exact ⟨rfl, rfl⟩
  | stop => exact absurd rfl hstop
  | join i => exact absurd rfl (hjoin i)
  | goOn n answer =>
      refine ⟨rfl, ?_⟩
      simp only [step, via, connector, Office.goOn, expect]
      split <;> rfl
  | overrun n =>
      simp only [step]
      split <;> exact ⟨rfl, rfl⟩
  | observe name =>
      refine ⟨rfl, ?_⟩
      simp only [step, via, connector, withConnection]
      split <;> rfl
  | read name =>
      refine ⟨rfl, ?_⟩
      simp only [step, via, connector, withConnection]
      split <;> rfl
  | place name operation =>
      simp only [step]
      split <;> exact ⟨rfl, rfl⟩
  | call i draw => exact huse i draw goOn
  | hangUp i => exact huse i 0 hangUp
  | _ => exact ⟨rfl, rfl⟩

/-- The first shutdown takes what is there, and those after it nothing. -/
theorem Attended.stop (h : b.Attended) (hsound : b.office.Sound config byAuthority) :
    (b.step .stop).Attended := by
  have hgrows : Grows b.office.chronicle (b.step .stop).office.chronicle := grows_run hsound [.stop]
  constructor
  case slot =>
    intro hnone
    exact absurd hnone (List.append_ne_nil_of_right_ne_nil _ (List.cons_ne_nil _ _))
  case taken => exact fun _ => rfl
  case first =>
    intro s hs n j' hj'
    obtain ⟨j, hj, -⟩ := hgrows.janitors n j' hj'
    rcases mem_append hs with hold | ⟨hlength, rfl⟩
    · exact h.first s hold n j hj
    · exact h.slot (List.length_eq_zero_iff.mp hlength.symm) n j hj
  case later =>
    intro i s hs hi
    rcases mem_append hs with hold | ⟨rfl, rfl⟩
    · exact h.later i s hold hi
    · exact h.taken fun hnone => hi (List.length_eq_zero_iff.mpr hnone)
  case returned =>
    intro i s hs hreturned
    rcases mem_append hs with hold | ⟨-, rfl⟩
    · exact ended_grows hgrows (h.returned i s hold hreturned)
    · cases hreturned

/-- A shutdown that goes on waits for what it has waited for, and returns only if it may. -/
theorem stopping_of_join {i k : Nat} {s' : Stopping}
    (hs' : (b.step (.join i)).stoppings[k]? = some s') :
    ∃ s, b.stoppings[k]? = some s ∧ s'.awaits = s.awaits ∧
      (s'.returned = true → s.returned = true ∨ b.connector.hasEnded s.awaits = true) := by
  have hs' : (b.stoppings.modify i b.connector.join)[k]? = some s' := hs'
  rw [List.getElem?_modify] at hs'
  obtain ⟨s, hs, rfl⟩ := Option.map_eq_some_iff.mp hs'
  refine ⟨s, hs, ?_⟩
  split
  · exact ⟨rfl, fun hreturned => Bool.or_eq_true_iff.mp hreturned⟩
  · exact ⟨rfl, .inl⟩

theorem Attended.join (h : b.Attended) (i : Nat) : (b.step (.join i)).Attended := by
  have hnone : (b.step (.join i)).stoppings = [] ↔ b.stoppings = [] := List.modify_eq_nil_iff
  constructor
  case slot => exact fun hempty => h.slot (hnone.mp hempty)
  case taken => exact fun hsome => h.taken fun hempty => hsome (hnone.mpr hempty)
  case first =>
    intro s' hs' n j hj
    obtain ⟨s, hs, hawaits, -⟩ := stopping_of_join hs'
    exact hawaits.trans (h.first s hs n j hj)
  case later =>
    intro k s' hs' hk
    obtain ⟨s, hs, hawaits, -⟩ := stopping_of_join hs'
    exact hawaits.trans (h.later k s hs hk)
  case returned =>
    intro k s' hs' hreturned
    obtain ⟨s, hs, hawaits, hended⟩ := stopping_of_join hs'
    rw [hawaits]
    exact (hended hreturned).elim (h.returned k s hs) id

theorem Attended.step (h : b.Attended) (hsound : b.office.Sound config byAuthority) (a : Affair) :
    (b.step a).Attended := by
  by_cases hstop : a = .stop
  · exact hstop ▸ h.stop hsound
  by_cases hjoin : ∃ i, a = .join i
  · obtain ⟨i, rfl⟩ := hjoin
    exact h.join i
  obtain ⟨hstoppings, hjanitor⟩ := b.stoppings_step hstop fun i hi => hjoin ⟨i, hi⟩
  exact h.grows (grows_run hsound [a]) hstoppings hjanitor

theorem attended_start (config : Config) (directory : Directory) (byAuthority : Bool)
    (draw : Nat → Float) : (start config directory byAuthority draw).Attended := by
  constructor
  case slot =>
    intro _ n j hj
    let minted : Exchange :=
      { shared := { Shared.start directory with tokens := ⟨3, []⟩ }, watches := [], janitors := [] }
    let cleaned := minted.janitor? config.resolver.cacheClearInterval ⟨[1, 0]⟩
    have hj : (cleaned.getD minted).janitors[n]? = some j := hj
    show cleaned.map (fun _ => 0) = some n
    unfold cleaned Exchange.janitor? at hj ⊢
    cases hrhythm : Rhythm.start? config.resolver.cacheClearInterval minted.now with
    | none =>
        rw [hrhythm] at hj
        cases hj
    | some rhythm =>
        rw [hrhythm] at hj
        obtain ⟨hlt, -⟩ := List.getElem?_eq_some_iff.mp hj
        exact congrArg some (Nat.lt_one_iff.mp hlt).symm
  case taken => exact fun hsome => absurd rfl hsome
  case first => exact fun s hs => by cases hs
  case later => exact fun i s hs => by cases hs
  case returned => exact fun i s hs => by cases hs

/-- **Whatever happens, the janitor is attended to.** -/
theorem Attended.run (h : b.Attended) (hsound : b.office.Sound config byAuthority)
    (affairs : List Affair) : (run affairs b).Attended := by
  induction affairs generalizing b with
  | nil => exact h
  | cons a affairs ih => exact ih (h.step hsound a) (sound_step hsound a)

/-- Once the first shutdown has returned, there is no janitor left that clears the cache, also not
one that is due and does not look at its token. -/
theorem overrun_ends (hsound : b.office.Sound config byAuthority) (h : b.Attended) {s : Stopping}
    (hfirst : b.stoppings[0]? = some s) (hreturned : s.returned = true) (rest : List Affair)
    (n : Nat) : (run rest b).step (.overrun n) = run rest b := by
  have hgrows := grows_run hsound rest
  refine if_neg ?_
  unfold isDue
  split
  · rename_i j' hj'
    obtain ⟨j, hj, -, hstays⟩ := hgrows.janitors n j' hj'
    have hended := Connector.hasEnded_iff.mp (h.returned 0 s hfirst hreturned)
    rw [hstays (hended n (h.first s hfirst n j hj) j hj)]
    exact Bool.false_ne_true
  · exact Bool.false_ne_true

/-- A shutdown returns when the janitor it has taken has gone on, or at once if it has taken none. -/
theorem join_returns (h : b.Ended config byAuthority) {i : Nat} {s : Stopping}
    (hs : b.stoppings[i]? = some s) :
    ∃ s', (run (s.awaits.toList.map .sweep ++ [.join i]) b).stoppings[i]? = some s' ∧
      s'.returned = true := by
  have hjoins {b : Bureau} (hs : b.stoppings[i]? = some s)
      (hended : b.connector.hasEnded s.awaits = true) :
      ∃ s', (b.step (.join i)).stoppings[i]? = some s' ∧ s'.returned = true := by
    refine ⟨b.connector.join s, ?_, Bool.or_eq_true_iff.mpr (.inr hended)⟩
    show (b.stoppings.modify i _)[i]? = _
    rw [List.getElem?_modify_eq, hs]
    rfl
  cases hawaits : s.awaits with
  | none => exact hjoins hs (by rw [hawaits]; rfl)
  | some n =>
      refine hjoins (b := b.step (.sweep n)) hs (Connector.hasEnded_iff.mpr fun m hm j hj => ?_)
      obtain rfl : n = m := Option.some.inj (hawaits.symm.trans hm)
      exact (sweep_ends h n).2 j hj

end Bureau

end Dialer
