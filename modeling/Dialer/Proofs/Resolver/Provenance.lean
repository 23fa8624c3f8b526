import Dialer.Proofs.Resolver.Soundness

/-!
# Where addresses come from

The journal of a chronicle is coherent: each deed follows from what is in the journal before it
(`Deed.Follows`). An answer that is heard belongs to the lookup begun last; what is stored is what
was heard; what is served is what was stored last under the key; and what is published was stored
by the watch itself or served to it. So any set can be traced back to one answer.

The state has to agree with the journal for this (`Traced`): whatever is in the cache was stored by
the last deed that stored anything under its key, and a loop is about to publish what its last deed
has given it. The one thing that breaks it is someone else who writes the cache.
-/

namespace Dialer

namespace AddressCache

theorem lookup_store (key other : String) (addresses : List Address)
    (entries : List (String × List Address)) :
    (store key addresses entries).lookup other =
      if other = key then some addresses else entries.lookup other := by
  have hself (k : String) (value : List Address) (rest : List (String × List Address)) :
      ((k, value) :: rest).lookup other = if other = k then some value else rest.lookup other := by
    by_cases h : other = k
    · subst h
      rw [List.lookup_cons_self, if_pos rfl]
    · rw [List.lookup_cons, beq_false_of_ne h, if_neg h]
  induction entries with
  | nil => exact hself key addresses []
  | cons entry rest ih =>
      obtain ⟨k, old⟩ := entry
      unfold store
      by_cases hk : k = key
      · rw [if_pos hk, hself, hself, hk]
        by_cases h : other = key <;> simp [h]
      · rw [if_neg hk, hself, hself, ih]
        by_cases h : other = k
        · rw [if_pos h, if_pos h, if_neg (h ▸ hk)]
        · rw [if_neg h, if_neg h]

theorem get?_put (c : AddressCache) (key other : String) (addresses : List Address) :
    (c.put key addresses).get? other = if other = key then some addresses else c.get? other :=
  lookup_store key other addresses c.entries

end AddressCache

namespace Resolver

/-- What a deed puts into the cache. -/
def Deed.stored? : Deed → Option (List Address)
  | .stores addresses => some addresses
  | _ => none

namespace Journal

/-- The last deed of a watch. -/
def last? (n : Nat) (journal : Journal) : Option Deed :=
  (journal.find? (·.number = n)).map (·.deed)

/-- The last deed that stored something under a key. -/
def storeOf? (key : String) (journal : Journal) : Option Entry :=
  journal.find? fun e => e.assignment.key = key ∧ e.deed.stored?.isSome

@[simp] theorem last?_cons_self (n : Nat) (a : Assignment) (now : Nat) (deed : Deed)
    (journal : Journal) : last? n (⟨n, a, now, deed⟩ :: journal) = some deed := by
  simp [last?]

theorem last?_append_ne {n m : Nat} (hne : m ≠ n) (a : Assignment) (now : Nat) (deeds : List Deed)
    (journal : Journal) :
    last? m (deeds.map (⟨n, a, now, ·⟩) ++ journal) = last? m journal := by
  induction deeds with
  | nil => rfl
  | cons deed deeds ih =>
      rw [List.map_cons, List.cons_append, last?, List.find?_cons_of_neg]
      · exact ih
      · simpa using Ne.symm hne

end Journal

/-- A deed follows from the last one of its watch, or from the last one that stored something under
its key. -/
inductive Deed.Follows (a : Assignment) (last : Option Deed) (stored : Option Entry) : Deed → Prop
  | asks (answer : LookupAnswer) : Follows a last stored (.asks answer)
  | hears (answer : LookupAnswer) (entries : List String) (hlast : last = some (.asks answer))
      (hfinding : answer.finding = .ips entries) : Follows a last stored (.hears entries)
  | fails : Follows a last stored .fails
  | stores (entries : List String) (hlast : last = some (.hears entries)) :
      Follows a last stored (.stores (Watch.addressesOf a.port entries))
  | serves (addresses : List Address) (e : Entry) (hstored : stored = some e)
      (hdeed : e.deed = .stores addresses) : Follows a last stored (.serves addresses)
  | publishesServed (addresses : List Address) (hlast : last = some (.serves addresses)) :
      Follows a last stored (.publishes addresses)
  | publishesStored (addresses : List Address) (hlast : last = some (.stores addresses)) :
      Follows a last stored (.publishes addresses)
  | publishesNothing (hlast : last = some .fails) : Follows a last stored (.publishes [])

/-- Each deed follows from those before it. -/
def Journal.Coherent : Journal → Prop
  | [] => True
  | e :: earlier =>
    e.deed.Follows e.assignment (Journal.last? e.number earlier)
      (Journal.storeOf? e.assignment.key earlier) ∧ Coherent earlier

/-- What is in a cache was stored last under its key, in an entry with some property. -/
def Journal.Backs (P : Entry → Prop) (cache : AddressCache) (journal : Journal) : Prop :=
  ∀ key addresses, cache.get? key = some addresses →
    ∃ e, Journal.storeOf? key journal = some e ∧ e.deed = .stores addresses ∧ P e

/-- A loop that has found addresses, or waits for an answer, has them from its last deed. -/
def Loop.Owes (l : Loop) (last : Option Deed) : Prop :=
  match l.point with
  | some (.found addresses) =>
    last = some (.serves addresses) ∨ last = some (.stores addresses) ∨
      last = some .fails ∧ addresses = []
  | some _ => True
  | none => ∀ lookup, l.watch.phase = .looking lookup →
    ∃ answer, last = some (.asks answer) ∧ answer.finding = lookup.finding

namespace Journal

theorem backs_empty (P : Entry → Prop) (journal : Journal) : Backs P .empty journal :=
  fun _ _ h => by cases h

/-- The deeds of a watch keep the journal behind the cache. -/
theorem backs_append {P : Entry → Prop} {cache : AddressCache} {journal : Journal} (n : Nat)
    (a : Assignment) (now : Nat) (deeds : List Deed) (hnew : ∀ deed, P ⟨n, a, now, deed⟩)
    (h : Backs P cache journal) :
    Backs P (deeds.foldr (·.cache a.key) cache) (deeds.map (⟨n, a, now, ·⟩) ++ journal) := by
  induction deeds with
  | nil => exact h
  | cons deed deeds ih =>
      intro key addresses hfound
      rw [List.map_cons, List.cons_append, storeOf?]
      have hskip (hnot : deed.stored? = none)
          (hsame : deed.cache a.key (deeds.foldr (·.cache a.key) cache) =
            deeds.foldr (·.cache a.key) cache) :
          ∃ e, List.find? (fun e => decide (e.assignment.key = key ∧ e.deed.stored?.isSome))
            (⟨n, a, now, deed⟩ :: (deeds.map (⟨n, a, now, ·⟩) ++ journal)) = some e ∧
              e.deed = .stores addresses ∧ P e := by
        rw [List.foldr_cons, hsame] at hfound
        rw [List.find?_cons_of_neg (by simp [hnot])]
        exact ih key addresses hfound
      cases deed with
      | stores stored =>
          rw [List.foldr_cons, Deed.cache, AddressCache.get?_put] at hfound
          by_cases hkey : key = a.key
          · rw [if_pos hkey] at hfound
            obtain rfl := Option.some.inj hfound
            rw [List.find?_cons_of_pos (by simp [hkey, Deed.stored?])]
            exact ⟨_, rfl, rfl, hnew _⟩
          · rw [if_neg hkey] at hfound
            rw [List.find?_cons_of_neg (by simp [Ne.symm hkey])]
            exact ih key addresses hfound
      | _ => exact hskip rfl rfl

end Journal

namespace Loop

variable {l l' : Loop} {s : Shared} {deeds : List Deed}

/-- **The deeds of a step follow from those before,** and leave the loop with what it has from
them. -/
theorem Acts.coherent (h : Acts l s deeds l') {n : Nat} (now : Nat) {journal : Journal}
    (hcoherent : journal.Coherent) (howes : l.Owes (journal.last? n)) {P : Entry → Prop}
    (hbacks : Journal.Backs P s.cache journal) :
    Journal.Coherent (deeds.map (⟨n, l.watch.assignment, now, ·⟩) ++ journal) ∧
      l'.Owes (Journal.last? n (deeds.map (⟨n, l.watch.assignment, now, ·⟩) ++ journal)) := by
  have hnotLooking {l' : Loop} {last : Option Deed} (hpoint : l'.point = none)
      (hphase : ∀ lookup, l'.watch.phase ≠ .looking lookup) : l'.Owes last := by
    simp only [Owes, hpoint]
    exact fun lookup hlooking => absurd hlooking (hphase lookup)
  cases h with
  | parks hpoint => exact ⟨hcoherent, hnotLooking rfl fun _ => Phase.noConfusion⟩
  | takes hpoint wanted => exact ⟨hcoherent, trivial⟩
  | serves hpoint a rest hcache =>
      obtain ⟨e, hstored, hdeed, -⟩ := hbacks _ _ hcache
      exact ⟨⟨.serves _ e hstored hdeed, hcoherent⟩, .inl (Journal.last?_cons_self ..)⟩
  | misses hpoint => exact ⟨hcoherent, trivial⟩
  | asks hpoint answer lookup hfinding =>
      refine ⟨⟨.asks answer, hcoherent⟩, ?_⟩
      intro other hlooking
      obtain rfl := Phase.looking.inj hlooking
      exact ⟨answer, Journal.last?_cons_self .., hfinding.symm⟩
  | hearsAtOnce hpoint answer entries hfinding =>
      refine ⟨⟨.stores entries (Journal.last?_cons_self ..),
        .hears answer entries (Journal.last?_cons_self ..) hfinding, .asks answer, hcoherent⟩, ?_⟩
      exact .inr (.inl (Journal.last?_cons_self ..))
  | failsAtOnce hpoint answer =>
      exact ⟨⟨.fails, .asks answer, hcoherent⟩, .inr (.inr ⟨Journal.last?_cons_self .., rfl⟩)⟩
  | hears hpoint lookup hphase entries hfinding =>
      simp only [Owes, hpoint] at howes
      obtain ⟨answer, hasked, hsame⟩ := howes lookup hphase
      refine ⟨⟨.stores entries (Journal.last?_cons_self ..),
        .hears answer entries hasked (hsame.trans hfinding), hcoherent⟩, ?_⟩
      exact .inr (.inl (Journal.last?_cons_self ..))
  | fails hpoint lookup hphase =>
      exact ⟨⟨.fails, hcoherent⟩, .inr (.inr ⟨Journal.last?_cons_self .., rfl⟩)⟩
  | publishes addresses hpoint =>
      have hidle : l.watch.phase = .idle := l.idle (by simp [hpoint])
      simp only [Owes, hpoint] at howes
      have hfollows : Deed.Follows l.watch.assignment (journal.last? n)
          (journal.storeOf? l.watch.assignment.key) (.publishes addresses) := by
        rcases howes with hserved | hstored | ⟨hfailed, rfl⟩
        · exact .publishesServed addresses hserved
        · exact .publishesStored addresses hstored
        · exact .publishesNothing hfailed
      refine ⟨⟨hfollows, hcoherent⟩, hnotLooking rfl fun lookup hlooking => ?_⟩
      rw [watch_ofWatch, hidle] at hlooking
      cases hlooking
  | stays hpoint => exact ⟨hcoherent, howes⟩

end Loop

namespace Chronicle

variable {v : Chronicle}

/-- The state of a chronicle agrees with its journal, whose entries behind the cache have some
property. -/
structure Traced (P : Entry → Prop) (v : Chronicle) : Prop where
  coherent : v.journal.Coherent
  cached : Journal.Backs P v.shared.cache v.journal
  owed : ∀ n w, v.watch? n = some w → (Loop.standing w (v.points n)).Owes (v.journal.last? n)


theorem traced_start (P : Entry → Prop) (directory : Directory) : Traced P (start directory) where
  coherent := trivial
  cached := Journal.backs_empty P []
  owed := fun _ _ h => by cases h

theorem owes_of_phase {w w' : Watch} {point : Option Point} {last : Option Deed}
    (h : (Loop.standing w point).Owes last)
    (hphase : ∀ lookup, w'.phase = .looking lookup → w.phase = .looking lookup) :
    (Loop.standing w' point).Owes last := by
  cases point with
  | none => exact fun lookup hlooking => h lookup (hphase lookup hlooking)
  | some point => exact h

/-- **The state keeps agreeing with the journal,** as long as nobody else writes the cache and what
is new has the property. -/
theorem traced_step {P : Entry → Prop} (hsound : v.Sound) (h : Traced P v) {o : Occurrence}
    (ho : ∀ key addresses, o ≠ .put key addresses)
    (hnew : ∀ n a deed, P ⟨n, a, v.shared.now, deed⟩) : Traced P (v.step o) := by
  have htakes := v.step_takes o hsound.within
  generalize v.step o = v' at htakes ⊢
  cases htakes with
  | acts n w deeds l shared ho hwatch hfree hacts htold =>
      obtain ⟨-, hassignment, -, -⟩ := standing_keeps w (v.points n)
      have hcoherent := hacts.coherent v.shared.now h.coherent (h.owed n w hwatch) h.cached
      rw [hassignment] at hcoherent
      refine ⟨hcoherent.1, ?_, ?_⟩
      · rw [shared_carry, htold.cache]
        exact Journal.backs_append n w.assignment v.shared.now deeds (hnew n w.assignment) h.cached
      · -- this loop has what its deed gave it, and the last deeds of all others are what they were
        intro m w' hm
        show (Loop.standing w' (Function.update v.points n l.point m)).Owes
          (Journal.last? m (deeds.map (⟨n, w.assignment, v.shared.now, ·⟩) ++ v.journal))
        rcases mem_set hm with ⟨rfl, rfl⟩ | ⟨hne, hsame⟩
        · rw [Function.update_self, standing_eq]
          exact hcoherent.2
        · rw [Function.update_of_ne hne, Journal.last?_append_ne hne]
          exact h.owed m w' hsame
  | alters n w phase wanted agenda hwatch hwithin hlooking hstopped hagenda =>
      refine ⟨h.coherent, h.cached, ?_⟩
      intro m w' hm
      rcases mem_set hm with ⟨rfl, rfl⟩ | ⟨hne, hsame⟩
      · exact owes_of_phase (h.owed _ w hwatch) hlooking
      · exact h.owed m w' hsame
  | begins options target w agenda ho hassignment hnumber hbox htoken hphase hagenda =>
      refine ⟨h.coherent, h.cached, ?_⟩
      intro m w' hm
      rcases mem_append hm with hold | ⟨rfl, rfl⟩
      · exact h.owed m w' hold
      · -- a new watch is idle, and has nothing yet
        have hpoint : v.points v.exchange.watches.length = none :=
          hsound.resting _ (by simp [watch?])
        show (Loop.standing w' (v.points v.exchange.watches.length)).Owes _
        rw [hpoint]
        intro lookup hlooking
        rw [show (Loop.standing w' none).watch.phase = w'.phase from rfl, hphase] at hlooking
        cases hlooking
  | aside _ haside =>
      refine ⟨?_, ?_, ?_⟩
      · rw [haside.journal]
        exact h.coherent
      · rw [haside.journal]
        rcases haside.cache with hsame | hempty | ⟨key, addresses, hput⟩
        · rw [hsame]
          exact h.cached
        · rw [hempty]
          exact Journal.backs_empty P v.journal
        · exact absurd hput (ho key addresses)
      · intro n w hw
        rw [haside.journal, haside.points]
        rw [watch?, haside.watches] at hw
        exact h.owed n w hw

end Chronicle

/-! ## Back to the answer -/

namespace Journal

variable {journal : Journal}

theorem Coherent.earlier {later earlier : Journal} (h : Coherent (later ++ earlier)) :
    Coherent earlier := by
  induction later with
  | nil => exact h
  | cons _ _ ih => exact ih h.2

theorem exists_of_last? {n : Nat} {deed : Deed} (h : journal.last? n = some deed) :
    ∃ e later earlier, journal = later ++ e :: earlier ∧ e.number = n ∧ e.deed = deed := by
  obtain ⟨e, hfound, hdeed⟩ := Option.map_eq_some_iff.mp h
  obtain ⟨hnumber, later, earlier, hsplit, -⟩ := List.find?_eq_some_iff_append.mp hfound
  exact ⟨e, later, earlier, hsplit, of_decide_eq_true hnumber, hdeed⟩

theorem exists_of_storeOf? {key : String} {e : Entry} (h : journal.storeOf? key = some e) :
    e.assignment.key = key ∧ ∃ later earlier, journal = later ++ e :: earlier := by
  obtain ⟨hkey, later, earlier, hsplit, -⟩ := List.find?_eq_some_iff_append.mp h
  exact ⟨(of_decide_eq_true hkey).1, later, earlier, hsplit⟩

/-- A watch has one assignment. -/
def Assigned (journal : Journal) : Prop :=
  ∀ e ∈ journal, ∀ e' ∈ journal, e.number = e'.number → e.assignment = e'.assignment

/-- A watch with an assignment was given entries, which answer the lookup that it had begun at an
instant. -/
def Heard (journal : Journal) (n : Nat) (a : Assignment) (asked : Nat) (entries : List String) :
    Prop :=
  ∃ answer heard, ⟨n, a, asked, .asks answer⟩ ∈ journal ∧
    ⟨n, a, heard, .hears entries⟩ ∈ journal ∧ answer.finding = .ips entries

/-- The deed that stored what a watch publishes: it is the watch's own, or it was the last one under
the key when the watch was served. -/
inductive StoredBy (journal : Journal) (e : Entry) (addresses : List Address) : Entry → Prop
  | own (store : Entry) (hmem : store ∈ journal) (hnumber : store.number = e.number)
      (hstores : store.deed = .stores addresses) : StoredBy journal e addresses store
  | served (store hit : Entry) (later earlier : Journal)
      (hsplit : journal = later ++ hit :: earlier)
      (hnumber : hit.number = e.number) (hserves : hit.deed = .serves addresses)
      (hstored : earlier.storeOf? e.assignment.key = some store)
      (hstores : store.deed = .stores addresses) : StoredBy journal e addresses store

theorem mem_split {later earlier : Journal} {e : Entry} (hsplit : journal = later ++ e :: earlier) :
    e ∈ journal := by
  rw [hsplit]
  exact List.mem_append_right _ List.mem_cons_self

theorem mem_earlier {later earlier : Journal} {e e' : Entry}
    (hsplit : journal = later ++ e :: earlier) (he' : e' ∈ earlier) : e' ∈ journal := by
  rw [hsplit]
  exact List.mem_append_right _ (List.mem_cons_of_mem _ he')

/-- **What is stored is an answer.** -/
theorem Coherent.heard (h : journal.Coherent) (hassigned : journal.Assigned) {e : Entry}
    (he : e ∈ journal) {addresses : List Address} (hdeed : e.deed = .stores addresses) :
    ∃ asked entries, addresses = Watch.addressesOf e.assignment.port entries ∧
      journal.Heard e.number e.assignment asked entries := by
  obtain ⟨later, earlier, hsplit⟩ := List.append_of_mem he
  rw [hsplit] at h
  obtain ⟨hfollows, hearlier⟩ := h.earlier
  rw [hdeed] at hfollows
  cases hfollows with
  | stores entries hheard =>
      obtain ⟨e1, later1, earlier1, hsplit1, hnumber1, hdeed1⟩ := exists_of_last? hheard
      rw [hsplit1] at hearlier
      obtain ⟨hfollows1, -⟩ := hearlier.earlier
      rw [hdeed1] at hfollows1
      cases hfollows1 with
      | hears answer _ hasked hfinding =>
          obtain ⟨e2, later2, earlier2, hsplit2, hnumber2, hdeed2⟩ := exists_of_last? hasked
          have hmem1 : e1 ∈ journal := mem_earlier hsplit (mem_split hsplit1)
          have hmem2 : e2 ∈ journal :=
            mem_earlier hsplit (mem_earlier hsplit1 (mem_split hsplit2))
          have hsame1 := hassigned e1 hmem1 e he hnumber1
          have hsame2 := hassigned e2 hmem2 e he (hnumber2.trans hnumber1)
          refine ⟨e2.time, entries, rfl, answer, e1.time, ?_, ?_, hfinding⟩
          · rw [← hsame2, ← hdeed2, ← hnumber1, ← hnumber2]
            exact hmem2
          · rw [← hsame1, ← hdeed1, ← hnumber1]
            exact hmem1

/-- **What is published was stored,** unless the cycle failed. -/
theorem Coherent.published (h : journal.Coherent) {later earlier : Journal} {e : Entry}
    (hsplit : journal = later ++ e :: earlier) (hassigned : journal.Assigned)
    {addresses : List Address} (hdeed : e.deed = .publishes addresses) :
    (earlier.last? e.number = some .fails ∧ addresses = []) ∨
      ∃ store, StoredBy journal e addresses store := by
  rw [hsplit] at h
  obtain ⟨hfollows, hearlier⟩ := h.earlier
  rw [hdeed] at hfollows
  cases hfollows with
  | publishesNothing hlast => exact .inl ⟨hlast, rfl⟩
  | publishesStored _ hlast =>
      obtain ⟨store, _, _, hsplit1, hnumber, hstores⟩ := exists_of_last? hlast
      exact .inr ⟨store, .own store (mem_earlier hsplit (mem_split hsplit1)) hnumber hstores⟩
  | publishesServed _ hlast =>
      obtain ⟨hit, later1, earlier1, hsplit1, hnumber, hserves⟩ := exists_of_last? hlast
      rw [hsplit1] at hearlier
      obtain ⟨hfollows1, -⟩ := hearlier.earlier
      rw [hserves] at hfollows1
      have hsame : hit.assignment = e.assignment :=
        hassigned hit (mem_earlier hsplit (mem_split hsplit1)) e (mem_split hsplit) hnumber
      rw [hsame] at hfollows1
      cases hfollows1 with
      | serves _ store hstored hstores =>
          refine .inr ⟨store, .served store hit (later ++ e :: later1) earlier1 ?_ hnumber hserves
            hstored hstores⟩
          rw [hsplit, hsplit1, List.append_assoc, List.cons_append]

theorem StoredBy.mem {e store : Entry} {addresses : List Address}
    (h : StoredBy journal e addresses store) :
    store ∈ journal ∧ store.deed = .stores addresses := by
  cases h with
  | own hmem _ hstores => exact ⟨hmem, hstores⟩
  | served _ _ _ hsplit _ _ hstored hstores =>
      obtain ⟨-, _, _, hsplit1⟩ := exists_of_storeOf? hstored
      exact ⟨mem_earlier hsplit (mem_split hsplit1), hstores⟩

theorem StoredBy.key_eq {e store : Entry} {addresses : List Address}
    (h : StoredBy journal e addresses store) (hassigned : journal.Assigned) (he : e ∈ journal) :
    store.assignment.key = e.assignment.key := by
  cases h with
  | own hmem hnumber _ => rw [hassigned store hmem e he hnumber]
  | served _ _ _ _ _ _ hstored _ => exact (exists_of_storeOf? hstored).1

end Journal

theorem Chronicle.Sound.one_assignment {v : Chronicle} (h : v.Sound) : v.journal.Assigned := by
  intro e he e' he' hsame
  obtain ⟨w, hw, hassignment⟩ := h.assigned e he
  obtain ⟨w', hw', hassignment'⟩ := h.assigned e' he'
  rw [hsame, hw'] at hw
  obtain rfl := Option.some.inj hw
  exact hassignment.symm.trans hassignment'

end Resolver

end Dialer
