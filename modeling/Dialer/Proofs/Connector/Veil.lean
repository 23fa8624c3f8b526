import Dialer.Proofs.Connector.Holdings
import Dialer.Proofs.Resolver.Provenance
import Dialer.Proofs.Resolver.Silence

/-!
# The exchange without one connection

A veil leaves a connection out of account with all that belongs to it: the marks of its tokens, its
watch, the outbox of that, and the cache entry of its endpoint. A wide veil also leaves out the
other watches for this endpoint, which may be served from that entry. Two chronicles look alike
through a veil (`Veil.Alike`) if they are the same in everything else but the metrics, the backends
and what is due.

* What is done with a hidden watch, or with hidden marks, does not show (`alike_go_hidden`,
  `alike_request_hidden`, `alike_cancel_hidden`).
* Whatever else happens, happens alike in both (`alike_go`, `alike_build` and the others): it
  depends on nothing that is hidden. Only a loop that reads the cache may come upon a hidden entry.
-/

namespace Dialer

open Resolver Chronicle

/-- A connection is left out of account. -/
structure Veil where
  connection : Connection
  /-- The marks of its tokens. -/
  marks : List Nat
  /-- Are all watches for its endpoint left out? -/
  wide : Bool

namespace Veil

variable (veil : Veil)

/-- The endpoint whose cache entry is hidden. -/
def key : String :=
  veil.connection.target.endpoint

def hides (w : Watch) : Bool :=
  if veil.wide then w.assignment.key = veil.key else veil.connection.resolver = some w.number

/-- How a watch looks. -/
def watch (w : Watch) : Watch :=
  if veil.hides w then { w with phase := .parked, wanted := false } else w

/-- No hidden watch publishes into the outbox. -/
def ShowsBox (v : Chronicle) (box : Nat) : Prop :=
  ∀ n w, v.watch? n = some w → veil.hides w = true → w.box ≠ box

def ShowsWatch (v : Chronicle) (n : Nat) : Prop :=
  ∀ w, v.watch? n = some w → veil.hides w = false

def HidesWatch (v : Chronicle) (n : Nat) : Prop :=
  ∀ w, v.watch? n = some w → veil.hides w = true

/-- Two chronicles look the same. -/
structure Alike (v v' : Chronicle) : Prop where
  now : v'.shared.now = v.shared.now
  next : v'.shared.tokens.next = v.shared.tokens.next
  cancelled : ∀ mark, mark ∉ veil.marks →
    (mark ∈ v'.shared.tokens.cancelled ↔ mark ∈ v.shared.tokens.cancelled)
  room : v'.shared.outboxes.length = v.shared.outboxes.length
  boxes : ∀ box, veil.ShowsBox v box → v'.shared.box box = v.shared.box box
  watches : v'.exchange.watches.map veil.watch = v.exchange.watches.map veil.watch
  loops : ∀ n, veil.ShowsWatch v n →
    v'.points n = v.points n ∧ v'.journal.of n = v.journal.of n
  janitors : v'.exchange.janitors = v.exchange.janitors
  cache : ∀ key, key ≠ veil.key → v'.shared.cache.get? key = v.shared.cache.get? key

variable {veil} {v v' v'' : Chronicle} {w w' : Watch} {n : Nat}

theorem hides_congr (hnumber : w'.number = w.number) (hassignment : w'.assignment = w.assignment) :
    veil.hides w' = veil.hides w := by
  unfold hides
  rw [hnumber, hassignment]

/-- A watch of which only the phase and the request are different looks the same if it is hidden. -/
theorem watch_hidden (h : veil.hides w = true) (phase : Phase) (wanted : Bool) :
    veil.watch { w with phase, wanted } = veil.watch w := by
  have hsame : veil.hides { w with phase, wanted } = true := h
  rw [watch, watch, if_pos hsame, if_pos h]

theorem watch_shown (h : veil.hides w = false) : veil.watch w = w :=
  if_neg (by rw [h]; exact Bool.false_ne_true)

theorem hides_or_shows (veil : Veil) (v : Chronicle) (n : Nat) :
    veil.HidesWatch v n ∨ ∃ w, v.watch? n = some w ∧ veil.hides w = false := by
  cases hw : v.watch? n with
  | none =>
      refine .inl fun w hfound => ?_
      rw [hw] at hfound
      cases hfound
  | some w =>
      cases hhides : veil.hides w with
      | true => exact .inl fun w' hw' => Option.some.inj (hw.symm.trans hw') ▸ hhides
      | false => exact .inr ⟨w, rfl, hhides⟩

/-- What a request changes in a watch. -/
theorem request_eq (w : Watch) :
    { w with phase := w.request.1.phase, wanted := w.request.1.wanted } = w.request.1 := by
  unfold Watch.request
  split <;> rfl

/-- What can be told of any watch. -/
theorem told_of_watch (h : veil.watch w' = veil.watch w) :
    w'.number = w.number ∧ w'.assignment = w.assignment ∧ w'.token = w.token ∧ w'.box = w.box ∧
      veil.hides w' = veil.hides w := by
  have hkept (w : Watch) : (veil.watch w).number = w.number ∧
      (veil.watch w).assignment = w.assignment ∧ (veil.watch w).token = w.token ∧
      (veil.watch w).box = w.box := by
    unfold watch
    split <;> exact ⟨rfl, rfl, rfl, rfl⟩
  obtain ⟨hnumber, hassignment, htoken, hbox⟩ := hkept w
  obtain ⟨hnumber', hassignment', htoken', hbox'⟩ := hkept w'
  rw [h] at hnumber' hassignment' htoken' hbox'
  have hnumbers := hnumber'.symm.trans hnumber
  have hassignments := hassignment'.symm.trans hassignment
  exact ⟨hnumbers, hassignments, htoken'.symm.trans htoken, hbox'.symm.trans hbox,
    hides_congr hnumbers hassignments⟩

theorem eq_of_watch (h : veil.watch w' = veil.watch w) (hshown : veil.hides w = false) :
    w' = w := by
  have hshown' : veil.hides w' = false := (told_of_watch h).2.2.2.2.trans hshown
  rwa [watch_shown hshown, watch_shown hshown'] at h

namespace Alike

theorem refl (veil : Veil) (v : Chronicle) : veil.Alike v v where
  now := rfl
  next := rfl
  cancelled _ _ := Iff.rfl
  room := rfl
  boxes _ _ := rfl
  watches := rfl
  loops _ _ := ⟨rfl, rfl⟩
  janitors := rfl
  cache _ _ := rfl

theorem find (h : veil.Alike v v') (hw : v.watch? n = some w) :
    ∃ w', v'.watch? n = some w' ∧ veil.watch w' = veil.watch w := by
  have hsame := congrArg (·[n]?) h.watches
  simp only [List.getElem?_map] at hsame
  rw [show v.exchange.watches[n]? = some w from hw, Option.map_some] at hsame
  exact Option.map_eq_some_iff.mp hsame

theorem find' (h : veil.Alike v v') (hw : v'.watch? n = some w') :
    ∃ w, v.watch? n = some w ∧ veil.watch w' = veil.watch w := by
  have hsame := congrArg (·[n]?) h.watches
  simp only [List.getElem?_map] at hsame
  rw [show v'.exchange.watches[n]? = some w' from hw, Option.map_some] at hsame
  obtain ⟨w, hw, hseen⟩ := Option.map_eq_some_iff.mp hsame.symm
  exact ⟨w, hw, hseen.symm⟩

theorem count (h : veil.Alike v v') : v'.exchange.watches.length = v.exchange.watches.length := by
  have hsame := congrArg List.length h.watches
  rwa [List.length_map, List.length_map] at hsame

theorem missing (h : veil.Alike v v') (hw : v.watch? n = none) : v'.watch? n = none := by
  rw [watch?, List.getElem?_eq_none_iff] at hw ⊢
  rwa [h.count]

theorem showsBox (h : veil.Alike v v') {box : Nat} :
    veil.ShowsBox v' box ↔ veil.ShowsBox v box := by
  constructor
  · intro hbox n w hw hhides
    obtain ⟨w', hw', hseen⟩ := h.find hw
    obtain ⟨-, -, -, hsame, hboth⟩ := told_of_watch hseen
    rw [← hsame]
    exact hbox n w' hw' (hboth.trans hhides)
  · intro hbox n w' hw' hhides
    obtain ⟨w, hw, hseen⟩ := h.find' hw'
    obtain ⟨-, -, -, hsame, hboth⟩ := told_of_watch hseen
    rw [hsame]
    exact hbox n w hw (hboth.symm.trans hhides)

theorem showsWatch (h : veil.Alike v v') : veil.ShowsWatch v' n ↔ veil.ShowsWatch v n := by
  constructor
  · intro hshown w hw
    obtain ⟨w', hw', hseen⟩ := h.find hw
    exact (told_of_watch hseen).2.2.2.2.symm.trans (hshown w' hw')
  · intro hshown w' hw'
    obtain ⟨w, hw, hseen⟩ := h.find' hw'
    exact (told_of_watch hseen).2.2.2.2.trans (hshown w hw)

theorem hidesWatch (h : veil.Alike v v') (hhidden : veil.HidesWatch v n) :
    veil.HidesWatch v' n := by
  intro w' hw'
  obtain ⟨w, hw, hseen⟩ := h.find' hw'
  exact (told_of_watch hseen).2.2.2.2.trans (hhidden w hw)

theorem symm (h : veil.Alike v v') : veil.Alike v' v where
  now := h.now.symm
  next := h.next.symm
  cancelled mark hmark := (h.cancelled mark hmark).symm
  room := h.room.symm
  boxes box hbox := (h.boxes box (h.showsBox.mp hbox)).symm
  watches := h.watches.symm
  loops n hn := ⟨(h.loops n (h.showsWatch.mp hn)).1.symm, (h.loops n (h.showsWatch.mp hn)).2.symm⟩
  janitors := h.janitors.symm
  cache key hkey := (h.cache key hkey).symm

theorem trans (h : veil.Alike v v') (h' : veil.Alike v' v'') : veil.Alike v v'' where
  now := h'.now.trans h.now
  next := h'.next.trans h.next
  cancelled mark hmark := (h'.cancelled mark hmark).trans (h.cancelled mark hmark)
  room := h'.room.trans h.room
  boxes box hbox := (h'.boxes box (h.showsBox.mpr hbox)).trans (h.boxes box hbox)
  watches := h'.watches.trans h.watches
  loops n hn := ⟨(h'.loops n (h.showsWatch.mpr hn)).1.trans (h.loops n hn).1,
    (h'.loops n (h.showsWatch.mpr hn)).2.trans (h.loops n hn).2⟩
  janitors := h'.janitors.trans h.janitors
  cache key hkey := (h'.cache key hkey).trans (h.cache key hkey)

/-- Where nobody else has been at work the two still look alike. -/
theorem both {u u' : Chronicle} (h : veil.Alike v v') (hself : veil.Alike v u)
    (hself' : veil.Alike v' u') : veil.Alike u u' :=
  hself.symm.trans (h.trans hself')

theorem isCancelled (h : veil.Alike v v') {t : Token} (ht : t.Spares veil.marks) :
    v'.shared.isCancelled t = v.shared.isCancelled t := by
  rw [Bool.eq_iff_iff]
  simp only [Shared.isCancelled, Cancellations.isCancelled, List.any_eq_true,
    List.contains_iff_mem]
  constructor
  · rintro ⟨mark, hmark, hcancelled⟩
    exact ⟨mark, hmark, (h.cancelled mark (ht mark hmark)).mp hcancelled⟩
  · rintro ⟨mark, hmark, hcancelled⟩
    exact ⟨mark, hmark, (h.cancelled mark (ht mark hmark)).mpr hcancelled⟩

end Alike

/-! ## What does not show -/

/-- The metrics, the backends and what is due are left out of account. -/
theorem alike_aside (v : Chronicle) (metrics : Metrics) (directory : Directory)
    (lookups : List LookupRecord) (agenda : Agenda Task) :
    veil.Alike v (v.apply fun s => { s with metrics, directory, lookups, agenda }) :=
  { Alike.refl veil v with }

theorem alike_place_hidden (hw : v.watch? n = some w) (hhides : veil.hides w = true)
    (phase : Phase) (wanted : Bool) : veil.Alike v (v.place n { w with phase, wanted }) := by
  refine { Alike.refl veil v with watches := ?_ }
  show (v.exchange.watches.set n { w with phase, wanted }).map veil.watch = _
  rw [List.map_set, watch_hidden hhides]
  obtain ⟨hlt, hsame⟩ := List.getElem?_eq_some_iff.mp hw
  rw [← hsame, ← List.getElem_map veil.watch (h := by rwa [List.length_map]),
    List.set_getElem_self]

theorem alike_request_hidden (hhidden : veil.HidesWatch v n) :
    veil.Alike v (v.step (.request n)) := by
  show veil.Alike v { v with exchange := v.exchange.request n }
  unfold Exchange.request
  cases hw : v.exchange.watches[n]? with
  | none => exact .refl veil v
  | some w =>
      have hplaced := alike_place_hidden hw (hhidden w hw) w.request.1.phase w.request.1.wanted
      rw [request_eq] at hplaced
      dsimp only
      split
      · exact hplaced.trans (alike_aside _ _ _ _ _)
      · exact hplaced

theorem alike_cancel_hidden {t : Token} (ht : ∀ mark ∈ t.lineage.head?, mark ∈ veil.marks) :
    veil.Alike v (v.step (.cancel t)) := by
  obtain ⟨agenda, hcancel, -⟩ := cancel_eq v.exchange t
  show veil.Alike v { v with exchange := v.exchange.cancel t }
  rw [hcancel]
  refine { Alike.refl veil v with cancelled := fun mark hmark => ?_ }
  refine ⟨fun hmem => ?_, fun hmem => List.mem_append_right _ hmem⟩
  rcases List.mem_append.mp hmem with hnew | hold
  · obtain ⟨lineage⟩ := t
    cases lineage with
    | nil => cases hnew
    | cons first rest =>
        rw [List.mem_singleton.mp hnew] at hmark
        exact absurd (ht first rfl) hmark
  · exact hold

theorem alike_close_hidden (hmarks : ∀ w, v.watch? n = some w →
    ∀ mark ∈ w.token.lineage.head?, mark ∈ veil.marks) : veil.Alike v (v.step (.close n)) := by
  cases hw : v.watch? n with
  | none =>
      rw [close_none hw]
      exact .refl veil v
  | some w =>
      rw [close_eq hw]
      exact alike_cancel_hidden (hmarks w hw)

theorem get?_foldr {key other : String} (hother : other ≠ key) (deeds : List Deed)
    (cache : AddressCache) :
    (deeds.foldr (·.cache key) cache).get? other = cache.get? other := by
  induction deeds with
  | nil => rfl
  | cons deed deeds ih =>
      rw [List.foldr_cons, ← ih]
      cases deed with
      | stores addresses => exact (AddressCache.get?_put ..).trans (if_neg hother)
      | _ => rfl

/-- A step changes no more of a watch than its phase and whether a request is kept. -/
theorem acts_keeps {deeds : List Deed} {l : Loop}
    (hacts : (Loop.standing w (v.points n)).Acts v.shared deeds l) :
    ∃ phase wanted, l.watch = { w with phase, wanted } := by
  obtain ⟨hnumber, hassignment, htoken, hbox⟩ := hacts.keeps
  obtain ⟨hnumber', hassignment', htoken', hbox'⟩ := standing_keeps w (v.points n)
  rcases hl : l.watch with ⟨number, assignment, token, box, phase, wanted⟩
  rw [hl] at hnumber hassignment htoken hbox
  refine ⟨phase, wanted, ?_⟩
  simp only [Watch.mk.injEq, and_true]
  exact ⟨hnumber.trans hnumber', hassignment.trans hassignment', htoken.trans htoken',
    hbox.trans hbox'⟩

theorem alike_carry_hidden (hw : v.watch? n = some w) (hhides : veil.hides w = true)
    (hkey : w.assignment.key = veil.key) {deeds : List Deed} {l : Loop} {shared : Shared}
    (hacts : (Loop.standing w (v.points n)).Acts v.shared deeds l)
    (htold : Told w.assignment w.box deeds v.shared shared) :
    veil.Alike v (v.carry n w.assignment deeds l shared) where
  now := htold.now
  next := congrArg Cancellations.next htold.tokens
  cancelled mark _ := by rw [shared_carry, htold.tokens]
  room := by rw [shared_carry, htold.outboxes, List.length_modify]
  boxes box hbox := htold.box_ne (hbox n w hw hhides)
  watches := by
    obtain ⟨phase, wanted, hsame⟩ := acts_keeps hacts
    have hplaced := alike_place_hidden hw hhides phase wanted
    rw [← hsame] at hplaced
    exact hplaced.watches
  loops m hm := by
    have hne : m ≠ n := by
      rintro rfl
      have hshown := hm w hw
      rw [hhides] at hshown
      cases hshown
    exact ⟨Function.update_of_ne hne _ _, of_append_ne hne ..⟩
  janitors := rfl
  cache key hne := by
    rw [shared_carry, htold.cache, hkey]
    exact get?_foldr hne deeds _

theorem go_cases (v : Chronicle) (n : Nat) :
    (v.watch? n = none ∧ v.step (.go n) = v) ∨ ∃ w, v.watch? n = some w ∧
      ((v.points n = none ∧ v.shared.isCancelled w.token = true ∧
          v.step (.go n) = v.place n { w with phase := .stopped }) ∨
        (¬ (v.points n = none ∧ v.shared.isCancelled w.token = true) ∧
          v.step (.go n) = v.carry n w.assignment ((Loop.standing w (v.points n)).deeds v.shared)
            ((Loop.standing w (v.points n)).step v.shared).1
            ((Loop.standing w (v.points n)).step v.shared).2)) := by
  show (_ ∧ v.go n = v) ∨ ∃ w, _ ∧ ((_ ∧ _ ∧ v.go n = _) ∨ (_ ∧ v.go n = _))
  unfold go
  cases hw : v.watch? n with
  | none => exact .inl ⟨rfl, rfl⟩
  | some w =>
      refine .inr ⟨w, rfl, ?_⟩
      dsimp only
      split
      · rename_i hstops
        exact .inl ⟨hstops.1, hstops.2, rfl⟩
      · rename_i hgoes
        exact .inr ⟨hgoes, rfl⟩

theorem standing_told (v : Chronicle) (n : Nat) (w : Watch) :
    Told w.assignment w.box ((Loop.standing w (v.points n)).deeds v.shared) v.shared
      ((Loop.standing w (v.points n)).step v.shared).2 := by
  obtain ⟨-, hassignment, -, hbox⟩ := standing_keeps w (v.points n)
  have htold := (Loop.standing w (v.points n)).step_told v.shared
  rwa [hassignment, hbox] at htold

/-- A hidden watch goes on behind the veil. -/
theorem alike_go_hidden (hhidden : veil.HidesWatch v n)
    (hkey : ∀ w, v.watch? n = some w → w.assignment.key = veil.key) :
    veil.Alike v (v.step (.go n)) := by
  rcases go_cases v n with ⟨-, hstep⟩ | ⟨w, hw, ⟨-, -, hstep⟩ | ⟨-, hstep⟩⟩
  · rw [hstep]
    exact .refl veil v
  · rw [hstep]
    exact alike_place_hidden hw (hhidden w hw) .stopped w.wanted
  · rw [hstep]
    exact alike_carry_hidden hw (hhidden w hw) (hkey w hw) (Loop.step_acts _ _)
      (standing_told v n w)

/-! ## What happens alike -/

/-- A watch that is changed in its phase and its request is as hidden as before. -/
theorem showsBox_of_set {u : Chronicle} (hw : v.watch? n = some w) {phase : Phase} {wanted : Bool}
    (hset : u.exchange.watches = v.exchange.watches.set n { w with phase, wanted }) {box : Nat}
    (h : veil.ShowsBox u box) : veil.ShowsBox v box := by
  intro m w' hm hhides
  by_cases hne : n = m
  · subst hne
    obtain rfl := Option.some.inj (hw.symm.trans hm)
    refine h n { w with phase, wanted } ?_ hhides
    rw [watch?, hset]
    exact List.getElem?_set_self (lt_of_watch? hw)
  · refine h m w' ?_ hhides
    rw [watch?, hset]
    exact (List.getElem?_set_ne hne).trans hm

theorem showsWatch_of_set {u : Chronicle} (hw : v.watch? n = some w) {phase : Phase}
    {wanted : Bool}
    (hset : u.exchange.watches = v.exchange.watches.set n { w with phase, wanted }) {m : Nat}
    (h : veil.ShowsWatch u m) : veil.ShowsWatch v m := by
  intro w' hm
  by_cases hne : n = m
  · subst hne
    obtain rfl := Option.some.inj (hw.symm.trans hm)
    refine h { w with phase, wanted } ?_
    rw [watch?, hset]
    exact List.getElem?_set_self (lt_of_watch? hw)
  · refine h w' ?_
    rw [watch?, hset]
    exact (List.getElem?_set_ne hne).trans hm

theorem Alike.shown (h : veil.Alike v v') (hw : v.watch? n = some w)
    (hshown : veil.hides w = false) : v'.watch? n = some w := by
  obtain ⟨w', hw', hseen⟩ := h.find hw
  rwa [eq_of_watch hseen hshown] at hw'

theorem alike_place (h : veil.Alike v v') (hw : v.watch? n = some w) (phase : Phase)
    (wanted : Bool) :
    veil.Alike (v.place n { w with phase, wanted }) (v'.place n { w with phase, wanted }) where
  now := h.now
  next := h.next
  cancelled := h.cancelled
  room := h.room
  boxes box hbox := h.boxes box (showsBox_of_set hw rfl hbox)
  watches := by
    show (v'.exchange.watches.set n _).map veil.watch = (v.exchange.watches.set n _).map veil.watch
    rw [List.map_set, List.map_set, h.watches]
  loops m hm := h.loops m (showsWatch_of_set hw rfl hm)
  janitors := h.janitors
  cache := h.cache

theorem alike_request (h : veil.Alike v v') (n : Nat) :
    veil.Alike (v.step (.request n)) (v'.step (.request n)) := by
  rcases veil.hides_or_shows v n with hhidden | ⟨w, hw, hshown⟩
  · exact h.both (alike_request_hidden hhidden) (alike_request_hidden (h.hidesWatch hhidden))
  · have hw' := h.shown hw hshown
    have hplaced := alike_place h hw w.request.1.phase w.request.1.wanted
    rw [request_eq] at hplaced
    have hstep {v : Chronicle} (hw : v.watch? n = some w) :
        veil.Alike (v.place n w.request.1) (v.step (.request n)) := by
      show veil.Alike _ { v with exchange := v.exchange.request n }
      unfold Exchange.request
      rw [show v.exchange.watches[n]? = some w from hw]
      dsimp only
      split
      · exact alike_aside _ _ _ _ _
      · exact .refl veil _
    exact hplaced.both (hstep hw) (hstep hw')

theorem alike_refresh (h : veil.Alike v v') (r : Handle) (times : Nat) :
    veil.Alike { v with exchange := v.exchange.refresh r times }
      { v' with exchange := v'.exchange.refresh r times } := by
  cases r with
  | none => exact h
  | some n =>
      induction times generalizing v v' with
      | zero => exact h
      | succ times ih => exact ih (alike_request h n)

theorem alike_refresh_hidden {r : Handle} (hhidden : ∀ n, r = some n → veil.HidesWatch v n)
    (times : Nat) : veil.Alike v { v with exchange := v.exchange.refresh r times } := by
  cases r with
  | none => exact .refl veil v
  | some n =>
      replace hhidden := hhidden n rfl
      induction times generalizing v with
      | zero => exact .refl veil v
      | succ times ih =>
          have halike := alike_request_hidden hhidden
          exact halike.trans (ih (halike.hidesWatch hhidden))

theorem alike_cancel (h : veil.Alike v v') (t : Token) :
    veil.Alike (v.step (.cancel t)) (v'.step (.cancel t)) := by
  obtain ⟨agenda, hcancel, -⟩ := cancel_eq v.exchange t
  obtain ⟨agenda', hcancel', -⟩ := cancel_eq v'.exchange t
  show veil.Alike { v with exchange := v.exchange.cancel t }
    { v' with exchange := v'.exchange.cancel t }
  rw [hcancel, hcancel']
  refine { h with cancelled := fun mark hmark => ?_ }
  show mark ∈ t.lineage.take 1 ++ _ ↔ mark ∈ t.lineage.take 1 ++ _
  rw [List.mem_append, List.mem_append]
  exact or_congr Iff.rfl (h.cancelled mark hmark)

theorem alike_close (h : veil.Alike v v') (n : Nat) :
    veil.Alike (v.step (.close n)) (v'.step (.close n)) := by
  cases hw : v.watch? n with
  | none =>
      rw [close_none hw, close_none (h.missing hw)]
      exact h
  | some w =>
      obtain ⟨w', hw', hseen⟩ := h.find hw
      rw [close_eq hw, close_eq hw', (told_of_watch hseen).2.2.1]
      exact alike_cancel h w.token

end Veil

/-! ## A loop that goes on -/

namespace Resolver.Loop

variable {l l' : Loop} {s s' : Shared}

theorem conclude_fst (l : Loop) (s s' : Shared) (finding : Finding) :
    (l.conclude s' finding).1 = (l.conclude s finding).1 := by
  cases finding <;> rfl

theorem ask_congr (hdirectory : s'.directory = s.directory) (backend : Backend) (host : String) :
    (s'.ask backend host).1 = (s.ask backend host).1 := by
  unfold Shared.ask
  rw [hdirectory]

theorem answerTime_congr (hnow : s'.now = s.now) (answer : LookupAnswer) :
    Watch.answerTime s' answer = Watch.answerTime s answer := by
  unfold Watch.answerTime
  rw [hnow]

theorem look_congr (hnow : s'.now = s.now) (hdirectory : s'.directory = s.directory) :
    (l.look s').1 = (l.look s).1 := by
  unfold look
  have hanswer := ask_congr hdirectory l.watch.assignment.backend l.watch.assignment.host
  have hafter (s : Shared) : (s.ask l.watch.assignment.backend l.watch.assignment.host).2.now =
      s.now := rfl
  have hnows := (hafter s').trans (hnow.trans (hafter s).symm)
  generalize s'.ask l.watch.assignment.backend l.watch.assignment.host = asked' at hanswer hnows
  generalize s.ask l.watch.assignment.backend l.watch.assignment.host = asked at hanswer hnows
  obtain ⟨answer', asked'⟩ := asked'
  obtain ⟨answer, asked⟩ := asked
  dsimp only at hanswer hnows ⊢
  subst hanswer
  rw [answerTime_congr hnows, hnows]
  split
  · exact conclude_fst l _ _ _
  · split <;> rfl

/-- **What a loop does next depends on nothing but the time, the backends, and the cache entry that
it is about to read.** -/
theorem step_congr (hnow : s'.now = s.now) (hdirectory : s'.directory = s.directory)
    (hread : l.point = some .taken →
      s'.cache.get? l.watch.assignment.key = s.cache.get? l.watch.assignment.key) :
    (l.step s').1 = (l.step s).1 ∧ l.deeds s' = l.deeds s := by
  unfold step deeds
  cases hpoint : l.point with
  | some point =>
      cases point with
      | taken =>
          unfold read
          dsimp only
          rw [hread hpoint]
          split <;> exact ⟨rfl, rfl⟩
      | missed =>
          refine ⟨look_congr hnow hdirectory, ?_⟩
          dsimp only
          rw [ask_congr hdirectory, answerTime_congr hnow, hnow]
      | found addresses => exact ⟨rfl, rfl⟩
  | none =>
      dsimp only
      cases l.watch.phase with
      | looking lookup =>
          dsimp only
          rw [hnow]
          split
          · exact ⟨conclude_fst l _ _ _, rfl⟩
          · split <;> exact ⟨rfl, rfl⟩
      | idle =>
          dsimp only
          split <;> exact ⟨rfl, rfl⟩
      | called => exact ⟨rfl, rfl⟩
      | parked => exact ⟨rfl, rfl⟩
      | stopped => exact ⟨rfl, rfl⟩

end Resolver.Loop

namespace Veil

variable {veil : Veil} {v v' : Chronicle} {w : Watch} {n : Nat}

theorem get?_foldr_congr {cache cache' : AddressCache} {key other : String}
    (h : cache'.get? other = cache.get? other) (deeds : List Deed) :
    (deeds.foldr (·.cache key) cache').get? other =
      (deeds.foldr (·.cache key) cache).get? other := by
  induction deeds with
  | nil => exact h
  | cons deed deeds ih =>
      rw [List.foldr_cons, List.foldr_cons]
      cases deed with
      | stores addresses =>
          show (AddressCache.put _ key addresses).get? other =
            (AddressCache.put _ key addresses).get? other
          rw [AddressCache.get?_put, AddressCache.get?_put, ih]
      | _ => exact ih

theorem box_modify (outboxes : List Outbox) (n m : Nat) (f : Outbox → Outbox) :
    (outboxes.modify n f).getD m .empty =
      if n = m ∧ m < outboxes.length then f (outboxes.getD m .empty)
      else outboxes.getD m .empty := by
  simp only [List.getD, List.getElem?_modify]
  by_cases hm : m < outboxes.length
  · by_cases hn : n = m <;> simp [hm, hn]
  · simp [hm]

theorem alike_carry (h : veil.Alike v v') (hw : v.watch? n = some w) {deeds : List Deed} {l : Loop}
    {shared shared' : Shared} (hacts : (Loop.standing w (v.points n)).Acts v.shared deeds l)
    (htold : Told w.assignment w.box deeds v.shared shared)
    (htold' : Told w.assignment w.box deeds v'.shared shared') :
    veil.Alike (v.carry n w.assignment deeds l shared)
      (v'.carry n w.assignment deeds l shared') := by
  obtain ⟨phase, wanted, hsame⟩ := acts_keeps hacts
  have hset : (v.carry n w.assignment deeds l shared).exchange.watches =
      v.exchange.watches.set n { w with phase, wanted } := by
    rw [← hsame]
    rfl
  constructor
  case now => exact htold'.now.trans (h.now.trans htold.now.symm)
  case next =>
    rw [shared_carry, shared_carry, htold.tokens, htold'.tokens]
    exact h.next
  case cancelled =>
    intro mark hmark
    rw [shared_carry, shared_carry, htold.tokens, htold'.tokens]
    exact h.cancelled mark hmark
  case room =>
    rw [shared_carry, shared_carry, htold.outboxes, htold'.outboxes, List.length_modify,
      List.length_modify]
    exact h.room
  case boxes =>
    intro box hbox
    have hsame := h.boxes box (showsBox_of_set hw hset hbox)
    simp only [Shared.box] at hsame
    simp only [shared_carry, Shared.box, htold.outboxes, htold'.outboxes, box_modify, h.room,
      h.now, hsame]
  case watches =>
    show (v'.exchange.watches.set n _).map veil.watch = (v.exchange.watches.set n _).map veil.watch
    rw [List.map_set, List.map_set, h.watches]
  case loops =>
    intro m hm
    obtain ⟨hpoints, hjournal⟩ := h.loops m (showsWatch_of_set hw hset hm)
    simp only [carry, h.now]
    by_cases hne : m = n
    · subst hne
      rw [Function.update_self, Function.update_self, of_append_self, of_append_self, hjournal]
      exact ⟨rfl, rfl⟩
    · rw [Function.update_of_ne hne, Function.update_of_ne hne, of_append_ne hne, of_append_ne hne]
      exact ⟨hpoints, hjournal⟩
  case janitors => exact h.janitors
  case cache =>
    intro key hkey
    rw [shared_carry, shared_carry, htold.cache, htold'.cache]
    exact get?_foldr_congr (h.cache key hkey) deeds

/-- A watch that shows stops in both, or does the same deeds in both. -/
theorem go_both (h : veil.Alike v v') (hw : v.watch? n = some w) (hshown : veil.hides w = false)
    (hspares : w.token.Spares veil.marks) (hdirectory : v'.shared.directory = v.shared.directory)
    (hread : v.points n = some .taken →
      v'.shared.cache.get? w.assignment.key = v.shared.cache.get? w.assignment.key) :
    (v.step (.go n) = v.place n { w with phase := .stopped } ∧
      v'.step (.go n) = v'.place n { w with phase := .stopped }) ∨
    ∃ deeds l shared shared', (Loop.standing w (v.points n)).Acts v.shared deeds l ∧
      Told w.assignment w.box deeds v.shared shared ∧
      Told w.assignment w.box deeds v'.shared shared' ∧
      v.step (.go n) = v.carry n w.assignment deeds l shared ∧
      v'.step (.go n) = v'.carry n w.assignment deeds l shared' := by
  have hw' := h.shown hw hshown
  obtain ⟨hpoint, -⟩ := h.loops n fun u hu => by rwa [Option.some.inj (hu.symm.trans hw)]
  have hcancelled := h.isCancelled hspares
  rcases go_cases v n with ⟨hnone, -⟩ | ⟨u, hu, hgoes⟩
  · rw [hw] at hnone
    cases hnone
  rcases go_cases v' n with ⟨hnone, -⟩ | ⟨u', hu', hgoes'⟩
  · rw [hw'] at hnone
    cases hnone
  obtain rfl := Option.some.inj (hw.symm.trans hu)
  obtain rfl := Option.some.inj (hw'.symm.trans hu')
  -- it stands at the same point in both, and its token is cancelled in both or in neither
  rw [hpoint, hcancelled] at hgoes'
  rcases hgoes with ⟨hbetween, hstops, hstep⟩ | ⟨hgoes, hstep⟩
  · rcases hgoes' with ⟨-, -, hstep'⟩ | ⟨hgoes', -⟩
    · exact .inl ⟨hstep, hstep'⟩
    · exact absurd ⟨hbetween, hstops⟩ hgoes'
  · rcases hgoes' with ⟨hbetween, hstops, -⟩ | ⟨-, hstep'⟩
    · exact absurd ⟨hbetween, hstops⟩ hgoes
    · obtain ⟨hnext, hdeeds⟩ := Loop.step_congr (l := Loop.standing w (v.points n)) h.now hdirectory
        (by
          rw [standing_point, (standing_keeps w (v.points n)).2.1]
          exact hread)
      have htold' := standing_told v' n w
      rw [hpoint, hdeeds] at htold'
      rw [hdeeds, hnext] at hstep'
      exact .inr ⟨_, _, _, _, Loop.step_acts _ _, standing_told v n w, htold', hstep, hstep'⟩

/-- **A watch that shows goes on alike,** unless what it reads in the cache is not the same. -/
theorem alike_go (h : veil.Alike v v') (hw : v.watch? n = some w) (hshown : veil.hides w = false)
    (hspares : w.token.Spares veil.marks) (hdirectory : v'.shared.directory = v.shared.directory)
    (hread : v.points n = some .taken →
      v'.shared.cache.get? w.assignment.key = v.shared.cache.get? w.assignment.key) :
    veil.Alike (v.step (.go n)) (v'.step (.go n)) := by
  rcases go_both h hw hshown hspares hdirectory hread with
    ⟨hstep, hstep'⟩ | ⟨deeds, l, shared, shared', hacts, htold, htold', hstep, hstep'⟩
  · rw [hstep, hstep']
    exact alike_place h hw .stopped w.wanted
  · rw [hstep, hstep']
    exact alike_carry h hw hacts htold htold'

theorem alike_clear (h : veil.Alike v v') : veil.Alike (v.step .clear) (v'.step .clear) :=
  { h with cache := fun _ _ => rfl }

theorem alike_jump (h : veil.Alike v v') (now : Nat) :
    veil.Alike (v.step (.jump now)) (v'.step (.jump now)) := by
  simp only [step, h.now]
  split
  · exact { h with now := rfl }
  · exact h

/-- A janitor clears the cache in both, or in neither. -/
theorem alike_sweep (h : veil.Alike v v')
    (hspares : ∀ j ∈ v.exchange.janitors, j.token.Spares veil.marks) (n : Nat) :
    veil.Alike (v.step (.sweep n)) (v'.step (.sweep n)) ∧
      ((v.step (.sweep n)).shared.cache = v.shared.cache ∧
          (v'.step (.sweep n)).shared.cache = v'.shared.cache ∨
        (v.step (.sweep n)).shared.cache = .empty ∧
          (v'.step (.sweep n)).shared.cache = .empty) := by
  show veil.Alike { v with exchange := v.exchange.run (.janitor n) }
      { v' with exchange := v'.exchange.run (.janitor n) } ∧
    ((v.exchange.run (.janitor n)).shared.cache = _ ∧
        (v'.exchange.run (.janitor n)).shared.cache = _ ∨
      (v.exchange.run (.janitor n)).shared.cache = _ ∧
        (v'.exchange.run (.janitor n)).shared.cache = _)
  rcases run_janitor v.exchange n with ⟨hnone, hsame⟩ | ⟨j, hj, hrun⟩
  · rcases run_janitor v'.exchange n with ⟨-, hsame'⟩ | ⟨j', hj', -⟩
    · rw [hsame, hsame']
      exact ⟨h, .inl ⟨rfl, rfl⟩⟩
    · rw [h.janitors, hnone] at hj'
      cases hj'
  · rcases run_janitor v'.exchange n with ⟨hnone', -⟩ | ⟨j', hj', hrun'⟩
    · rw [h.janitors, hj] at hnone'
      cases hnone'
    · rw [h.janitors] at hj'
      obtain rfl := Option.some.inj (hj.symm.trans hj')
      have hcancelled := h.isCancelled (hspares j (List.mem_of_getElem? hj))
      have hnow : v'.exchange.shared.now = v.exchange.shared.now := h.now
      simp only [shared] at hcancelled
      rw [hrun, hrun']
      unfold Janitor.run
      rw [hcancelled, hnow]
      split
      · exact ⟨{ h with janitors := by simp only [h.janitors] }, .inl ⟨rfl, rfl⟩⟩
      · split
        · exact ⟨{ h with janitors := by simp only [h.janitors], cache := fun _ _ => rfl },
            .inr ⟨rfl, rfl⟩⟩
        · exact ⟨{ h with janitors := by simp only [h.janitors] }, .inl ⟨rfl, rfl⟩⟩

/-! ## New connections -/

theorem box_openBox (s : Shared) (box : Nat) : s.openBox.2.box box = s.box box := by
  simp only [Shared.openBox, Shared.box, List.getD, List.getElem?_append]
  split
  · rfl
  · rename_i hbeyond
    rw [List.getElem?_eq_none (Nat.not_lt.mp hbeyond)]
    rcases hrest : box - s.outboxes.length with _ | rest <;> simp

theorem alike_openBox (h : veil.Alike v v') :
    veil.Alike (v.apply (·.openBox.2)) (v'.apply (·.openBox.2)) := by
  refine { h with room := ?_, boxes := fun box hbox => ?_ }
  · show (v'.shared.outboxes ++ [Outbox.empty]).length =
      (v.shared.outboxes ++ [Outbox.empty]).length
    rw [List.length_append, List.length_append, h.room]
  · exact (box_openBox v'.shared box).trans
      ((h.boxes box hbox).trans (box_openBox v.shared box).symm)

theorem alike_publish (h : veil.Alike v v') (box : Nat) (addresses : List Address) :
    veil.Alike (v.apply (·.publish box addresses)) (v'.apply (·.publish box addresses)) := by
  refine { h with room := ?_, boxes := fun other hother => ?_ }
  · show (v'.shared.outboxes.modify box _).length = (v.shared.outboxes.modify box _).length
    rw [List.length_modify, List.length_modify, h.room]
  · have hsame := h.boxes other hother
    have hnow : v'.exchange.shared.now = v.exchange.shared.now := h.now
    have hroom : v'.exchange.shared.outboxes.length = v.exchange.shared.outboxes.length := h.room
    simp only [shared, Shared.box] at hsame
    simp only [shared, apply, via, Exchange.apply, Shared.box, Shared.publish, box_modify, hroom,
      hnow, hsame]

theorem alike_mint (h : veil.Alike v v') (above : Token) :
    veil.Alike (v.step (.mint (some above))) (v'.step (.mint (some above))) :=
  { h with next := congrArg (· + 1) h.next }

theorem alike_begin (h : veil.Alike v v') {w w' : Watch} (hsame : w' = w) :
    veil.Alike (v.via fun x => { x with watches := x.watches ++ [w] })
      (v'.via fun x => { x with watches := x.watches ++ [w'] }) := by
  subst hsame
  have hold {n : Nat} {u : Watch} (hu : v.watch? n = some u) :
      (v.exchange.watches ++ [w'])[n]? = some u :=
    (List.getElem?_append_left (lt_of_watch? hu)).trans hu
  refine { h with boxes := ?_, watches := ?_, loops := ?_ }
  · exact fun box hbox => h.boxes box fun n u hu => hbox n u (hold hu)
  · show (v'.exchange.watches ++ [w']).map veil.watch = (v.exchange.watches ++ [w']).map veil.watch
    rw [List.map_append, List.map_append, h.watches]
  · exact fun n hn => h.loops n fun u hu => hn u (hold hu)

theorem alike_watchTarget (h : veil.Alike v v') {options : LookupOptions} {above : Token}
    (habove : options.shutdown = some above) (t : Target) (box : Nat) :
    (v'.exchange.watchTarget options t box).1 = (v.exchange.watchTarget options t box).1 ∧
      veil.Alike { v with exchange := (v.exchange.watchTarget options t box).2 }
        { v' with exchange := (v'.exchange.watchTarget options t box).2 } := by
  rw [watchTarget_eq, watchTarget_eq, habove]
  refine ⟨congrArg some h.count, ?_⟩
  have hnext : v'.exchange.shared.tokens.next = v.exchange.shared.tokens.next := h.next
  have hsame : (⟨v'.exchange.watches.length, options.assignment t,
      ⟨v'.exchange.shared.tokens.next :: above.lineage⟩, box, .idle, true⟩ : Watch) =
      ⟨v.exchange.watches.length, options.assignment t,
        ⟨v.exchange.shared.tokens.next :: above.lineage⟩, box, .idle, true⟩ := by
    rw [h.count, hnext]
  exact (alike_begin (alike_mint h above) hsame).both (alike_aside _ _ _ _ _)
    (alike_aside _ _ _ _ _)

theorem alike_produce (h : veil.Alike v v') (source : Source) (box : Nat)
    (addresses : List Address) :
    veil.Alike (v.apply (·.produce source box addresses))
      (v'.apply (·.produce source box addresses)) :=
  alike_publish (h.both
    (alike_aside v (v.shared.metrics.tally (.resolutions source)) v.shared.directory
      v.shared.lookups v.shared.agenda)
    (alike_aside v' (v'.shared.metrics.tally (.resolutions source)) v'.shared.directory
      v'.shared.lookups v'.shared.agenda)) box addresses

/-- **A resolver is made alike,** or in neither of the two. -/
theorem alike_build (h : veil.Alike v v') {b : Builder}
    (hbuilder : ∀ options, b = .dns options → options.shutdown.isSome) (t : Target) (box : Nat) :
    (∃ e, v.exchange.build b t box = .error e ∧ v'.exchange.build b t box = .error e) ∨
    ∃ r x x', v.exchange.build b t box = .ok (r, x) ∧ v'.exchange.build b t box = .ok (r, x') ∧
      veil.Alike { v with exchange := x } { v' with exchange := x' } := by
  cases b with
  | passthrough =>
      exact .inr ⟨none, _, _, rfl, rfl, alike_produce h .passthrough box [⟨t.endpoint⟩]⟩
  | fixed scheme addresses complaint =>
      cases complaint with
      | some complaint => exact .inl ⟨_, rfl, rfl⟩
      | none => exact .inr ⟨none, _, _, rfl, rfl, alike_publish h box addresses⟩
  | dns options =>
      unfold Exchange.build
      dsimp only
      cases t.literalAddress? with
      | some address => exact .inr ⟨none, _, _, rfl, rfl, alike_produce h .literal box [address]⟩
      | none =>
          obtain ⟨above, habove⟩ := Option.isSome_iff_exists.mp (hbuilder options rfl)
          obtain ⟨hhandle, halike⟩ := alike_watchTarget h habove t box
          exact .inr ⟨(v.exchange.watchTarget options t box).1,
            (v.exchange.watchTarget options t box).2, (v'.exchange.watchTarget options t box).2,
            rfl, congrArg Except.ok (Prod.ext hhandle rfl), halike⟩

end Veil

end Dialer
