import Dialer.Proofs.Resolver.Chronicle

/-!
# What holds at any time

A chronicle is sound at any time (`Chronicle.sound_run`): its watches are numbered, publish each
into an outbox of their own and have a token of their own, and above all its journal tells every
lookup and every publication there was. What each occurrence keeps, every run keeps (`run_keeps`).
-/

namespace Dialer.Resolver.Chronicle

variable {v : Chronicle}

/-- What holds at any time. -/
structure Sound (v : Chronicle) : Prop where
  numbered : ∀ n w, v.watch? n = some w → w.number = n
  boxed : ∀ n w, v.watch? n = some w → w.box < v.shared.outboxes.length
  /-- No two watches publish into the same outbox. -/
  apart : ∀ m n w w', v.watch? m = some w → v.watch? n = some w' → w.box = w'.box → m = n
  /-- The token of a watch has a mark of its own. -/
  rooted : ∀ n w, v.watch? n = some w → w.token.lineage ≠ []
  resting : ∀ n, v.watch? n = none → v.points n = none
  /-- Within a cycle a loop keeps requests. -/
  within : ∀ n w, v.watch? n = some w → v.points n ≠ none → w.phase = .idle
  assigned : ∀ e ∈ v.journal, ∃ w, v.watch? e.number = some w ∧ w.assignment = e.assignment
  lookups : v.shared.lookups = v.journal.lookups
  published : ∀ n w, v.watch? n = some w →
    (v.shared.box w.box).published = v.journal.publications n
  agenda : v.shared.agenda.Sorted

theorem sound_start (directory : Directory) : (start directory).Sound where
  numbered := fun _ _ h => by cases h
  boxed := fun _ _ h => by cases h
  apart := fun _ _ _ _ h => by cases h
  rooted := fun _ _ h => by cases h
  resting := fun _ _ => rfl
  within := fun _ _ h => by cases h
  assigned := fun _ h => by cases h
  lookups := rfl
  published := fun _ _ h => by cases h
  agenda := Agenda.sorted_empty

/-- A list after one of its entries has changed. -/
theorem mem_set {α : Type} {entries : List α} {n m : Nat} {a b : α}
    (h : (entries.set n a)[m]? = some b) : (m = n ∧ b = a) ∨ (m ≠ n ∧ entries[m]? = some b) := by
  by_cases hm : m = n
  · subst hm
    have hlt : m < entries.length := by
      have := (List.getElem?_eq_some_iff.mp h).1
      rwa [List.length_set] at this
    rw [List.getElem?_set_self hlt] at h
    exact .inl ⟨rfl, (Option.some.inj h).symm⟩
  · rw [List.getElem?_set_ne (Ne.symm hm)] at h
    exact .inr ⟨hm, h⟩

theorem none_of_set {watches : List Watch} {n m : Nat} {w : Watch}
    (h : (watches.set n w)[m]? = none) : watches[m]? = none := by
  rw [List.getElem?_eq_none_iff] at h ⊢
  rwa [List.length_set] at h

theorem lookups_append (n : Nat) (a : Assignment) (now : Nat) (deeds : List Deed)
    (journal : Journal) :
    Journal.lookups (deeds.map (⟨n, a, now, ·⟩) ++ journal) =
      deeds.filterMap (·.lookup? a now) ++ journal.lookups := by
  simp only [Journal.lookups, List.filterMap_append, List.filterMap_map]
  rfl

theorem of_append_self (n : Nat) (a : Assignment) (now : Nat) (deeds : List Deed)
    (journal : Journal) :
    Journal.of n (deeds.map (⟨n, a, now, ·⟩) ++ journal) =
      deeds.map (⟨n, a, now, ·⟩) ++ journal.of n := by
  rw [Journal.of, List.filter_append, List.filter_eq_self.mpr]
  · rfl
  · intro e he
    obtain ⟨deed, -, rfl⟩ := List.mem_map.mp he
    exact decide_eq_true rfl

theorem of_append_ne {n m : Nat} (hne : m ≠ n) (a : Assignment) (now : Nat) (deeds : List Deed)
    (journal : Journal) :
    Journal.of m (deeds.map (⟨n, a, now, ·⟩) ++ journal) = journal.of m := by
  rw [Journal.of, List.filter_append, List.filter_eq_nil_iff.mpr]
  · rfl
  · intro e he
    obtain ⟨deed, -, rfl⟩ := List.mem_map.mp he
    simpa using Ne.symm hne

theorem publications_append_self (n : Nat) (a : Assignment) (now : Nat) (deeds : List Deed)
    (journal : Journal) :
    Journal.publications n (deeds.map (⟨n, a, now, ·⟩) ++ journal) =
      deeds.filterMap (·.publication? now) ++ journal.publications n := by
  rw [Journal.publications, of_append_self, List.filterMap_append, List.filterMap_map]
  rfl

theorem publications_append_ne {n m : Nat} (hne : m ≠ n) (a : Assignment) (now : Nat)
    (deeds : List Deed) (journal : Journal) :
    Journal.publications m (deeds.map (⟨n, a, now, ·⟩) ++ journal) = journal.publications m := by
  rw [Journal.publications, of_append_ne hne]
  rfl

theorem sound_acts (h : v.Sound) {n : Nat} {w : Watch} {deeds : List Deed} {l : Loop}
    {s : Shared} (hwatch : v.watch? n = some w)
    (hacts : (Loop.standing w (v.points n)).Acts v.shared deeds l)
    (htold : Told w.assignment w.box deeds v.shared s) :
    (v.carry n w.assignment deeds l s).Sound := by
  obtain ⟨hnumber, hassignment, htoken, hbox⟩ := hacts.keeps
  obtain ⟨hnumber', hassignment', htoken', hbox'⟩ := standing_keeps w (v.points n)
  rw [hnumber'] at hnumber
  rw [hassignment'] at hassignment
  rw [htoken'] at htoken
  rw [hbox'] at hbox
  have hroom : s.outboxes.length = v.shared.outboxes.length := by
    rw [htold.outboxes, List.length_modify]
  -- every watch keeps its outbox and its assignment
  have hold {m : Nat} {w' : Watch} (hm : (v.carry n w.assignment deeds l s).watch? m = some w') :
      ∃ before, v.watch? m = some before ∧ before.box = w'.box ∧
        before.assignment = w'.assignment := by
    rcases mem_set hm with ⟨rfl, rfl⟩ | ⟨-, hsame⟩
    · exact ⟨w, hwatch, hbox.symm, hassignment.symm⟩
    · exact ⟨w', hsame, rfl, rfl⟩
  have hself : (v.carry n w.assignment deeds l s).watch? n = some l.watch :=
    List.getElem?_set_self (lt_of_watch? hwatch)
  constructor
  case numbered =>
    intro m w' hm
    rcases mem_set hm with ⟨rfl, rfl⟩ | ⟨-, hsame⟩
    · exact hnumber.trans (h.numbered _ _ hwatch)
    · exact h.numbered _ _ hsame
  case boxed =>
    intro m w' hm
    obtain ⟨before, hbefore, hsame, -⟩ := hold hm
    rw [shared_carry, hroom, ← hsame]
    exact h.boxed _ _ hbefore
  case apart =>
    intro m m' w' w'' hm hm' hsame
    obtain ⟨before, hbefore, hbox1, -⟩ := hold hm
    obtain ⟨before', hbefore', hbox2, -⟩ := hold hm'
    exact h.apart _ _ _ _ hbefore hbefore' (hbox1.trans (hsame.trans hbox2.symm))
  case rooted =>
    intro m w' hm
    rcases mem_set hm with ⟨rfl, rfl⟩ | ⟨-, hsame⟩
    · rw [htoken]
      exact h.rooted _ _ hwatch
    · exact h.rooted _ _ hsame
  case resting =>
    intro m hm
    have hnone : v.watch? m = none := none_of_set hm
    have hne : m ≠ n := by
      rintro rfl
      rw [hwatch] at hnone
      cases hnone
    exact (Function.update_of_ne hne _ _).trans (h.resting m hnone)
  case within =>
    intro m w' hm hpoint
    rcases mem_set hm with ⟨rfl, rfl⟩ | ⟨hne, hsame⟩
    · refine l.idle fun hnone => hpoint ?_
      exact (Function.update_self _ _ _).trans hnone
    · refine h.within m w' hsame fun hnone => hpoint ?_
      exact (Function.update_of_ne hne _ _).trans hnone
  case assigned =>
    intro e he
    rcases List.mem_append.mp he with hnew | hearlier
    · obtain ⟨deed, -, rfl⟩ := List.mem_map.mp hnew
      exact ⟨l.watch, hself, hassignment⟩
    · obtain ⟨before, hbefore, hsame⟩ := h.assigned e hearlier
      by_cases hn : e.number = n
      · rw [hn, hwatch] at hbefore
        obtain rfl := Option.some.inj hbefore
        exact ⟨l.watch, by rw [hn]; exact hself, hassignment.trans hsame⟩
      · exact ⟨before, (List.getElem?_set_ne (Ne.symm hn)).trans hbefore, hsame⟩
  case lookups =>
    show s.lookups = Journal.lookups (_ ++ v.journal)
    rw [lookups_append, htold.lookups, h.lookups]
  case published =>
    intro m w' hm
    show (s.box w'.box).published = Journal.publications m (_ ++ v.journal)
    rcases mem_set hm with ⟨rfl, rfl⟩ | ⟨hne, hsame⟩
    · rw [publications_append_self, hbox, htold.box_self (h.boxed _ _ hwatch),
        h.published _ _ hwatch]
    · have hapart : w.box ≠ w'.box := fun hsame' => hne (h.apart _ _ _ _ hsame hwatch hsame'.symm)
      rw [publications_append_ne hne, htold.box_ne hapart, h.published _ _ hsame]
  case agenda => exact htold.agenda.sorted h.agenda

/-- Where no watch does anything, it is enough that each watch was there before. -/
theorem sound_of_old {v' : Chronicle} (h : v.Sound)
    (hold : ∀ m w', v'.watch? m = some w' → ∃ w, v.watch? m = some w ∧ w.number = w'.number ∧
      w.box = w'.box ∧ w.token = w'.token ∧ (v.points m ≠ none → w'.phase = w.phase))
    (hkept : ∀ m w, v.watch? m = some w → ∃ w', v'.watch? m = some w' ∧
      w'.assignment = w.assignment)
    (hpoints : v'.points = v.points) (hjournal : v'.journal = v.journal)
    (hlookups : v'.shared.lookups = v.shared.lookups)
    (hroom : v.shared.outboxes.length ≤ v'.shared.outboxes.length)
    (houtboxes : ∀ n w, v.watch? n = some w → v'.shared.box w.box = v.shared.box w.box)
    (hagenda : v'.shared.agenda.Sorted) : v'.Sound where
  numbered := by
    intro m w' hm
    obtain ⟨w, hw, hnumber, -⟩ := hold m w' hm
    rw [← hnumber]
    exact h.numbered m w hw
  boxed := by
    intro m w' hm
    obtain ⟨w, hw, -, hbox, -⟩ := hold m w' hm
    rw [← hbox]
    exact Nat.lt_of_lt_of_le (h.boxed m w hw) hroom
  apart := by
    intro m m' w' w'' hm hm' hsame
    obtain ⟨w, hw, -, hbox, -⟩ := hold m w' hm
    obtain ⟨u, hu, -, hbox', -⟩ := hold m' w'' hm'
    exact h.apart m m' w u hw hu (hbox.trans (hsame.trans hbox'.symm))
  rooted := by
    intro m w' hm
    obtain ⟨w, hw, -, -, htoken, -⟩ := hold m w' hm
    rw [← htoken]
    exact h.rooted m w hw
  resting := by
    intro m hm
    rw [hpoints]
    apply h.resting m
    cases hw : v.watch? m with
    | none => rfl
    | some w =>
        obtain ⟨w', hw', -⟩ := hkept m w hw
        rw [hm] at hw'
        cases hw'
  within := by
    intro m w' hm hpoint
    obtain ⟨w, hw, -, -, -, hphase⟩ := hold m w' hm
    rw [hpoints] at hpoint
    rw [hphase hpoint]
    exact h.within m w hw hpoint
  assigned := by
    intro e he
    rw [hjournal] at he
    obtain ⟨w, hw, hsame⟩ := h.assigned e he
    obtain ⟨w', hw', hassignment⟩ := hkept _ w hw
    exact ⟨w', hw', hassignment.trans hsame⟩
  lookups := by rw [hlookups, hjournal, h.lookups]
  published := by
    intro m w' hm
    obtain ⟨w, hw, -, hbox, -⟩ := hold m w' hm
    rw [← hbox, houtboxes m w hw, hjournal]
    exact h.published m w hw
  agenda := hagenda

theorem sound_alters (h : v.Sound) {n : Nat} {w : Watch} {phase : Phase} {wanted : Bool}
    {agenda : Agenda Task} (hwatch : v.watch? n = some w)
    (hwithin : v.points n ≠ none → phase = w.phase) (hagenda : agenda.Sorted) :
    ((v.apply fun s => { s with agenda }).place n { w with phase, wanted }).Sound := by
  refine sound_of_old h ?_ ?_ rfl rfl rfl (Nat.le_refl _) (fun _ _ _ => rfl) hagenda
  · intro m w' hm
    rcases mem_set hm with ⟨rfl, rfl⟩ | ⟨-, hsame⟩
    · exact ⟨w, hwatch, rfl, rfl, rfl, hwithin⟩
    · exact ⟨w', hsame, rfl, rfl, rfl, fun _ => rfl⟩
  · intro m w' hm
    by_cases hne : n = m
    · subst hne
      rw [hwatch] at hm
      obtain rfl := Option.some.inj hm
      exact ⟨_, List.getElem?_set_self (lt_of_watch? hwatch), rfl⟩
    · exact ⟨w', (List.getElem?_set_ne hne).trans hm, rfl⟩

theorem sound_aside {o : Occurrence} {v' : Chronicle} (h : v.Sound) (haside : Aside v o v') :
    v'.Sound := by
  have hsame (m : Nat) : v'.watch? m = v.watch? m := by
    simp only [watch?, haside.watches]
  refine sound_of_old h ?_ ?_ haside.points haside.journal haside.lookups haside.room ?_
    (haside.agenda h.agenda)
  · intro m w hm
    rw [hsame] at hm
    exact ⟨w, hm, rfl, rfl, rfl, fun _ => rfl⟩
  · intro m w hm
    exact ⟨w, (hsame m).trans hm, rfl⟩
  · intro n w hw
    exact haside.outboxes w (List.mem_of_getElem? hw) (h.boxed n w hw)

/-- A list after an entry has been added. -/
theorem mem_append {α : Type} {entries : List α} {m : Nat} {a b : α}
    (h : (entries ++ [a])[m]? = some b) :
    entries[m]? = some b ∨ (m = entries.length ∧ b = a) := by
  rcases Nat.lt_or_ge m entries.length with hlt | hge
  · rw [List.getElem?_append_left hlt] at h
    exact .inl h
  · have hm : m = entries.length := by
      have := (List.getElem?_eq_some_iff.mp h).1
      rw [List.length_append, List.length_singleton] at this
      omega
    subst hm
    rw [List.getElem?_concat_length] at h
    exact .inr ⟨rfl, (Option.some.inj h).symm⟩

theorem sound_begins (h : v.Sound) {w : Watch} {agenda : Agenda Task}
    (hnumber : w.number = v.exchange.watches.length) (hbox : w.box = v.shared.outboxes.length)
    (htoken : w.token.lineage.head? = some v.shared.tokens.next) (hagenda : agenda.Sorted) :
    ((v.apply fun s =>
      { s with
        outboxes := s.outboxes ++ [.empty]
        tokens := { s.tokens with next := s.tokens.next + 1 }
        agenda }).via fun x => { x with watches := x.watches ++ [w] }).Sound := by
  have hlast : v.watch? v.exchange.watches.length = none := by simp [watch?]
  have hnew {e : Entry} (he : e ∈ v.journal) : e.number ≠ v.exchange.watches.length := by
    intro hsame
    obtain ⟨w', hw', -⟩ := h.assigned e he
    rw [hsame, hlast] at hw'
    cases hw'
  constructor
  case numbered =>
    intro m w' hm
    rcases mem_append hm with hold | ⟨rfl, rfl⟩
    · exact h.numbered m w' hold
    · exact hnumber
  case boxed =>
    intro m w' hm
    show w'.box < (v.shared.outboxes ++ [Outbox.empty]).length
    rw [List.length_append, List.length_singleton]
    rcases mem_append hm with hold | ⟨rfl, rfl⟩
    · have := h.boxed m w' hold
      omega
    · omega
  case apart =>
    intro m m' w' w'' hm hm' hsame
    rcases mem_append hm with hold | ⟨rfl, rfl⟩ <;> rcases mem_append hm' with hold' | ⟨rfl, rfl⟩
    · exact h.apart m m' w' w'' hold hold' hsame
    · have := h.boxed m w' hold
      omega
    · have := h.boxed m' w'' hold'
      omega
    · rfl
  case rooted =>
    intro m w' hm
    rcases mem_append hm with hold | ⟨rfl, rfl⟩
    · exact h.rooted m w' hold
    · intro hnothing
      rw [hnothing] at htoken
      cases htoken
  case resting =>
    intro m hm
    have hlength : (v.exchange.watches ++ [w]).length ≤ m := List.getElem?_eq_none_iff.mp hm
    rw [List.length_append] at hlength
    exact h.resting m (List.getElem?_eq_none (by omega))
  case within =>
    intro m w' hm hpoint
    rcases mem_append hm with hold | ⟨rfl, rfl⟩
    · exact h.within m w' hold hpoint
    · exact absurd (h.resting _ hlast) hpoint
  case assigned =>
    intro e he
    obtain ⟨w', hw', hsame⟩ := h.assigned e he
    exact ⟨w', (List.getElem?_append_left (lt_of_watch? hw')).trans hw', hsame⟩
  case lookups => exact h.lookups
  case published =>
    intro m w' hm
    show ((v.shared.outboxes ++ [Outbox.empty]).getD w'.box .empty).published = _
    rcases mem_append hm with hold | ⟨rfl, rfl⟩
    · rw [box_append (h.boxed m w' hold) rfl]
      exact h.published m w' hold
    · -- a new watch has an outbox without publications, and the journal none of its deeds
      rw [hbox, List.getD, List.getElem?_concat_length]
      have hnothing : Journal.of v.exchange.watches.length v.journal = [] :=
        List.filter_eq_nil_iff.mpr fun e he => by simpa using hnew he
      show [] = Journal.publications v.exchange.watches.length v.journal
      rw [Journal.publications, hnothing]
      rfl
  case agenda => exact hagenda

/-- **A chronicle is sound at any time.** -/
theorem sound_step (h : v.Sound) (o : Occurrence) : (v.step o).Sound := by
  have htakes := v.step_takes o h.within
  generalize v.step o = v' at htakes ⊢
  cases htakes with
  | acts n w deeds l shared ho hwatch hfree hacts htold => exact sound_acts h hwatch hacts htold
  | alters n w phase wanted agenda hwatch hwithin hlooking hstopped hagenda =>
      exact sound_alters h hwatch hwithin (hagenda.sorted h.agenda)
  | begins options target w agenda ho hassignment hnumber hbox htoken hphase hagenda =>
      exact sound_begins h hnumber hbox htoken (hagenda.sorted h.agenda)
  | aside _ haside => exact sound_aside h haside

/-- What holds at first and is kept by all occurrences that are allowed holds at any time. -/
theorem run_keeps {P : Chronicle → Prop} (allowed : Occurrence → Prop)
    (hstep : ∀ v o, v.Sound → allowed o → P v → P (v.step o)) (hsound : v.Sound)
    {occurrences : List Occurrence} (hallowed : ∀ o ∈ occurrences, allowed o) (h : P v) :
    P (run occurrences v) := by
  induction occurrences generalizing v with
  | nil => exact h
  | cons o occurrences ih =>
      have hfirst := hstep v o hsound (hallowed o List.mem_cons_self) h
      exact ih (sound_step hsound o) (fun o ho => hallowed o (List.mem_cons_of_mem _ ho)) hfirst

theorem sound_run (h : v.Sound) (occurrences : List Occurrence) : (run occurrences v).Sound :=
  run_keeps (fun _ => True) (fun _ o hsound _ _ => sound_step hsound o) h (fun _ _ => trivial) h

/-- Someone who is no watch publishes into an outbox of their own. -/
theorem run_offer (h : v.Sound) (metrics : Metrics) (addresses : List Address) :
    run [.box, .elsewhere metrics v.shared.directory,
        .publish v.shared.outboxes.length addresses] v =
      v.apply fun s => { s.openBox.2 with metrics }.publish s.openBox.1 addresses := by
  have hapart : ∀ w ∈ v.exchange.watches, w.box ≠ v.shared.outboxes.length := by
    intro w hw
    obtain ⟨n, hn⟩ := List.getElem?_of_mem hw
    exact Nat.ne_of_lt (h.boxed n w hn)
  show (if ∀ w ∈ v.exchange.watches, w.box ≠ v.shared.outboxes.length then _ else _) = _
  rw [if_pos hapart]
  rfl

/-- A watch keeps its number, its assignment, its token and its outbox. -/
theorem watch_step (h : v.Sound) {n : Nat} {w : Watch} (hwatch : v.watch? n = some w)
    (o : Occurrence) : ∃ w', (v.step o).watch? n = some w' ∧ w'.assignment = w.assignment ∧
      w'.token = w.token ∧ w'.box = w.box := by
  have htakes := v.step_takes o h.within
  generalize v.step o = v' at htakes ⊢
  cases htakes with
  | acts m u deeds l shared ho hu hfree hacts htold =>
      by_cases hne : m = n
      · subst hne
        obtain rfl := Option.some.inj (hwatch.symm.trans hu)
        obtain ⟨-, hassignment, htoken, hbox⟩ := hacts.keeps
        obtain ⟨-, hassignment', htoken', hbox'⟩ := standing_keeps w (v.points m)
        exact ⟨l.watch, List.getElem?_set_self (lt_of_watch? hwatch),
          hassignment.trans hassignment', htoken.trans htoken', hbox.trans hbox'⟩
      · exact ⟨w, (List.getElem?_set_ne hne).trans hwatch, rfl, rfl, rfl⟩
  | alters m u phase wanted agenda hu hwithin hlooking hstopped hagenda =>
      by_cases hne : m = n
      · subst hne
        obtain rfl := Option.some.inj (hwatch.symm.trans hu)
        exact ⟨_, List.getElem?_set_self (lt_of_watch? hwatch), rfl, rfl, rfl⟩
      · exact ⟨w, (List.getElem?_set_ne hne).trans hwatch, rfl, rfl, rfl⟩
  | begins options target u agenda ho hassignment hnumber hbox htoken hphase hagenda =>
      exact ⟨w, (List.getElem?_append_left (lt_of_watch? hwatch)).trans hwatch, rfl, rfl, rfl⟩
  | aside _ haside =>
      refine ⟨w, ?_, rfl, rfl, rfl⟩
      rw [watch?, haside.watches]
      exact hwatch

theorem watch_run (h : v.Sound) {n : Nat} {w : Watch} (hwatch : v.watch? n = some w)
    (occurrences : List Occurrence) : ∃ w', (run occurrences v).watch? n = some w' ∧
      w'.assignment = w.assignment ∧ w'.token = w.token ∧ w'.box = w.box := by
  refine run_keeps (P := fun v' => ∃ w', v'.watch? n = some w' ∧ w'.assignment = w.assignment ∧
    w'.token = w.token ∧ w'.box = w.box) (fun _ => True) ?_ h (fun _ _ => trivial)
    ⟨w, hwatch, rfl, rfl, rfl⟩
  rintro v' o hsound - ⟨w', hw', hassignment, htoken, hbox⟩
  obtain ⟨w'', hw'', hassignment', htoken', hbox'⟩ := watch_step hsound hw' o
  exact ⟨w'', hw'', hassignment'.trans hassignment, htoken'.trans htoken, hbox'.trans hbox⟩

/-! ## Runs of some kind -/

/-- A number of occurrences, all of them allowed, lead from one state to another. -/
def Reaches (allowed : Occurrence → Prop) (v v' : Chronicle) : Prop :=
  ∃ occurrences, (∀ o ∈ occurrences, allowed o) ∧ run occurrences v = v'

variable {allowed : Occurrence → Prop} {v v' v'' : Chronicle}

theorem Reaches.refl (allowed : Occurrence → Prop) (v : Chronicle) : Reaches allowed v v :=
  ⟨[], fun _ h => absurd h List.not_mem_nil, rfl⟩

theorem Reaches.trans (h : Reaches allowed v v') (h' : Reaches allowed v' v'') :
    Reaches allowed v v'' := by
  obtain ⟨first, hfirst, hrun⟩ := h
  obtain ⟨second, hsecond, hrun'⟩ := h'
  refine ⟨first ++ second, ?_, ?_⟩
  · intro o ho
    rcases List.mem_append.mp ho with h | h
    · exact hfirst o h
    · exact hsecond o h
  · rw [run_append, hrun, hrun']

theorem Reaches.step {o : Occurrence} (h : allowed o) (hstep : v.step o = v') :
    Reaches allowed v v' := by
  refine ⟨[o], ?_, hstep⟩
  intro o' ho'
  rw [List.mem_singleton.mp ho']
  exact h

theorem Reaches.mono {other : Occurrence → Prop} (himp : ∀ o, allowed o → other o)
    (h : Reaches allowed v v') : Reaches other v v' := by
  obtain ⟨occurrences, hallowed, hrun⟩ := h
  exact ⟨occurrences, fun o ho => himp o (hallowed o ho), hrun⟩

end Dialer.Resolver.Chronicle
