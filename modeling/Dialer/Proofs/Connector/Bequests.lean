import Dialer.Proofs.Connector.Isolation

/-!
# What a closed connection would have left in the cache

The cache is the one thing that a connection leaves to others. Where one run has a connection closed
and another has not, its watch may go on to store addresses in that other run, under its endpoint;
whoever looks there finds them in the one run only.

* `Veil.Echo` relates the entries of the two runs: they are the same, or the one was stored by the
  watch since, and the watch has stopped in the run where it is closed. Every affair keeps this up
  (`Veil.echo_step`): nothing but the steps of loops and the clearing of the cache touches loops and
  entries (`Bureau.still_step`).
* A wide veil hides all watches for the endpoint, and then no loop that shows reads such an entry:
  what shows stays the same whatever happens (`Veil.Pair.run_wide`).
* A narrow one hides the watch of the connection only. What shows stays the same as long as no other
  loop reads an entry in which the runs differ (`Veil.Pair.run_narrow`).
-/

namespace Dialer

open Resolver Chronicle

/-! ## What is left in the cache -/

namespace Resolver

namespace Journal

/-- What deeds leave under a key: what was there before, or what one of them has stored. -/
theorem stores_or_not (a : Assignment) (key : String) (deeds : List Deed) :
    (∀ (cache : AddressCache) (n now : Nat) (journal : Journal),
      (deeds.foldr (·.cache a.key) cache).get? key = cache.get? key ∧
        storeOf? key (deeds.map (⟨n, a, now, ·⟩) ++ journal) = storeOf? key journal) ∨
    ∃ addresses, ∀ (cache : AddressCache) (n now : Nat) (journal : Journal),
      (deeds.foldr (·.cache a.key) cache).get? key = some addresses ∧
        ∃ e, storeOf? key (deeds.map (⟨n, a, now, ·⟩) ++ journal) = some e ∧ e.number = n := by
  induction deeds with
  | nil => exact .inl fun _ _ _ _ => ⟨rfl, rfl⟩
  | cons deed deeds ih =>
      -- the latest deed that stores anything under the key decides
      by_cases hstores : a.key = key ∧ deed.stored?.isSome
      · obtain ⟨hkey, hsome⟩ := hstores
        cases deed with
        | stores addresses =>
            refine .inr ⟨addresses, fun cache n now journal =>
              ⟨?_, ⟨n, a, now, .stores addresses⟩, ?_, rfl⟩⟩
            · exact (AddressCache.get?_put ..).trans (if_pos hkey.symm)
            · exact List.find?_cons_of_pos (by simp [hkey, Deed.stored?])
        | _ => cases hsome
      · have hskips (n now : Nat) (journal : Journal) :
            storeOf? key ((deed :: deeds).map (⟨n, a, now, ·⟩) ++ journal) =
              storeOf? key (deeds.map (⟨n, a, now, ·⟩) ++ journal) :=
          List.find?_cons_of_neg (by simpa using hstores)
        have hkept (cache : AddressCache) : (deed.cache a.key cache).get? key = cache.get? key := by
          cases deed with
          | stores addresses =>
              refine (AddressCache.get?_put ..).trans (if_neg fun hkey => hstores ⟨hkey.symm, rfl⟩)
          | _ => rfl
        rcases ih with hnothing | ⟨addresses, hstored⟩
        · refine .inl fun cache n now journal => ?_
          rw [List.foldr_cons, hkept, hskips]
          exact hnothing cache n now journal
        · refine .inr ⟨addresses, fun cache n now journal => ?_⟩
          rw [List.foldr_cons, hkept, hskips]
          exact hstored cache n now journal

end Journal

namespace Loop

variable {w w' : Watch} {s s' : Shared}

theorem look_point {l l' : Loop} (hassignment : l'.watch.assignment = l.watch.assignment)
    (hpoint : l'.point = l.point) (s : Shared) : (l'.look s).1.point = (l.look s).1.point := by
  unfold look
  rw [hassignment]
  generalize s.ask l.watch.assignment.backend l.watch.assignment.host = asked
  obtain ⟨answer, s⟩ := asked
  dsimp only
  split
  · cases answer.finding with
    | ips entries => simp only [conclude, point_within, hassignment]
    | fails error => rfl
    | hangs => exact hpoint
  · split <;> rfl

/-- Within a cycle it does not matter what a watch keeps. -/
theorem within_congr (hassignment : w'.assignment = w.assignment) (point : Point)
    (hnow : s'.now = s.now) (hdirectory : s'.directory = s.directory)
    (hread : point = .taken →
      s'.cache.get? w.assignment.key = s.cache.get? w.assignment.key) :
    ((within w' point).step s').1.point = ((within w point).step s).1.point ∧
      (within w' point).deeds s' = (within w point).deeds s := by
  obtain ⟨hnext, hdeeds⟩ := step_congr (l := within w' point) hnow hdirectory (by
    intro hpoint
    rw [watch_within, hassignment]
    exact hread (Option.some.inj hpoint))
  rw [hnext, hdeeds]
  have hsame : (within w' point).watch.assignment = (within w point).watch.assignment := hassignment
  have hdone : (within w' point).deeds s = (within w point).deeds s := by
    unfold deeds endings
    rw [hsame]
    rfl
  refine ⟨?_, hdone⟩
  cases point with
  | taken =>
      simp only [step, point_within, read, hsame]
      split <;> rfl
  | missed => exact look_point hsame rfl s
  | found addresses => rfl

end Loop

namespace Chronicle

/-- The cache entry of a key was stored by a watch, later than a journal tells. -/
def Bequest (v : Chronicle) (n : Nat) (key : String) (since : Journal) : Prop :=
  (v.shared.cache.get? key).isSome ∧
    ∃ later e, v.journal = later ++ since ∧ later.storeOf? key = some e ∧ e.number = n

theorem journal_carry {v : Chronicle} {later since : Journal} (n : Nat) (a : Assignment)
    (deeds : List Deed) (l : Loop) (shared : Shared) (hhistory : v.journal = later ++ since) :
    (v.carry n a deeds l shared).journal =
      (deeds.map (⟨n, a, v.shared.now, ·⟩) ++ later) ++ since := by
  rw [List.append_assoc, ← hhistory]
  rfl

/-- Deeds leave an entry and its origin as they are, or leave a new one, whatever was there. -/
theorem carry_bequeaths (n : Nat) (a : Assignment) (deeds : List Deed) (key : String) :
    (∀ (v : Chronicle) (l : Loop) (box : Nat) (shared : Shared),
      Told a box deeds v.shared shared →
        shared.cache.get? key = v.shared.cache.get? key ∧ ∀ m since,
          v.Bequest m key since → (v.carry n a deeds l shared).Bequest m key since) ∨
    ∃ addresses, ∀ (v : Chronicle) (l : Loop) (box : Nat) (shared : Shared),
      Told a box deeds v.shared shared →
        shared.cache.get? key = some addresses ∧ ∀ later since, v.journal = later ++ since →
          (v.carry n a deeds l shared).Bequest n key since := by
  rcases Journal.stores_or_not a key deeds with hnothing | ⟨addresses, hstores⟩
  · refine .inl fun v l box shared htold => ?_
    obtain ⟨hkept, -⟩ := hnothing v.shared.cache n v.shared.now v.journal
    rw [← htold.cache] at hkept
    refine ⟨hkept, ?_⟩
    rintro m since ⟨hsome, later, e, hhistory, hstored, hnumber⟩
    refine ⟨?_, _, e, journal_carry n a deeds l shared hhistory, ?_, hnumber⟩
    · rw [shared_carry, hkept]
      exact hsome
    · exact (hnothing v.shared.cache n v.shared.now later).2.trans hstored
  · refine .inr ⟨addresses, fun v l box shared htold => ?_⟩
    obtain ⟨hnew, -⟩ := hstores v.shared.cache n v.shared.now v.journal
    rw [← htold.cache] at hnew
    refine ⟨hnew, fun later since hhistory => ?_⟩
    obtain ⟨-, e, hstored, hnumber⟩ := hstores v.shared.cache n v.shared.now later
    refine ⟨?_, _, e, journal_carry n a deeds l shared hhistory, hstored, hnumber⟩
    rw [shared_carry, hnew]
    rfl

/-! ## What leaves the loops and the cache alone -/

/-- No loop has gone on, and nobody has touched the cache. -/
structure Still (v v' : Chronicle) : Prop where
  points : v'.points = v.points
  journal : v'.journal = v.journal
  cache : v'.shared.cache = v.shared.cache

variable {v v' v'' : Chronicle}

theorem Still.refl (v : Chronicle) : Still v v := ⟨rfl, rfl, rfl⟩

theorem Still.trans (h : Still v v') (h' : Still v' v'') : Still v v'' :=
  ⟨h'.points.trans h.points, h'.journal.trans h.journal, h'.cache.trans h.cache⟩

theorem still_of_unmoved {n : Nat} (h : Unmoved n v v') : Still v v' := by
  obtain ⟨tokens, agenda, hshared⟩ := h.shared
  exact ⟨h.points, h.journal, by rw [hshared]⟩

theorem still_act (v : Chronicle) {occurrence : Occurrence} (hact : occurrence.isAct = true) :
    Still v (v.step occurrence) := by
  cases occurrence with
  | request n => exact still_of_unmoved (unmoved_request v n).1
  | close n =>
      cases hw : v.watch? n with
      | none =>
          rw [close_none hw]
          exact .refl v
      | some w =>
          rw [close_eq hw]
          exact still_of_unmoved (unmoved_cancel n v w.token).1
  | cancel token => exact still_of_unmoved (unmoved_cancel 0 v token).1
  | watch options target =>
      rw [step_watch]
      exact ⟨rfl, rfl, rfl⟩
  | mint above => cases above <;> exact ⟨rfl, rfl, rfl⟩
  | box => exact ⟨rfl, rfl, rfl⟩
  | publish box addresses =>
      simp only [step]
      split <;> exact ⟨rfl, rfl, rfl⟩
  | elsewhere metrics directory => exact ⟨rfl, rfl, rfl⟩
  | _ => cases hact

theorem still_reaches {allowed : Occurrence → Prop} (hallowed : ∀ o, allowed o → o.isAct = true)
    (hreaches : Reaches allowed v v') : Still v v' := by
  obtain ⟨occurrences, hall, rfl⟩ := hreaches
  induction occurrences generalizing v with
  | nil => exact .refl v
  | cons o occurrences ih =>
      exact (still_act v (hallowed o (hall o List.mem_cons_self))).trans
        (ih fun o ho => hall o (List.mem_cons_of_mem _ ho))

end Chronicle

end Resolver

namespace Bureau

variable {config : Config} {byAuthority : Bool} {b : Bureau}

theorem still_leave {o : Office} (name : String) {l : Line}
    (hexchange : l.exchange = o.connector.exchange) (breaker : Breaker) (asks : Nat)
    (metrics : Metrics) :
    Still o.chronicle (o.leave name (l.after breaker asks metrics)).chronicle := by
  obtain ⟨agenda, hrefresh⟩ := o.connector.exchange.refresh_shared l.connection.resolver asks
  rw [Office.leave_eq hexchange]
  refine ⟨rfl, rfl, ?_⟩
  show (o.connector.exchange.refresh l.connection.resolver asks).shared.cache = _
  rw [hrefresh]
  rfl

theorem still_use {f : Session → Line → Session × Line} (hf : Steady f) (i : Nat) (draw : Float) :
    Still b.office.chronicle (b.use i draw f).office.chronicle := by
  rcases hf.use_cases b i draw with hsame | ⟨v, c, session, breaker, asks, metrics, -, -, huse⟩
  · rw [hsame]
    exact .refl _
  · rw [huse]
    exact still_leave v.name (l := b.line draw c) rfl breaker asks metrics

end Bureau

/-- Does a loop go on, or may the cache be cleared? -/
def Affair.stirs : Affair → Bool
  | .goOn _ _ | .sweep _ | .overrun _ | .clear => true
  | _ => false

theorem Bureau.still_step {config : Config} {byAuthority : Bool} {b : Bureau}
    (hsound : b.office.Sound config byAuthority) {a : Affair} (ha : a.stirs = false) :
    Still b.office.chronicle (b.step a).office.chronicle := by
  cases a with
  | order e =>
      simp only [step]
      split
      · rename_i horder
        exact still_reaches (fun _ h => h.2) (Office.deal_reaches true hsound
          (fun occurrence he => by rw [he] at horder; cases horder) fun _ => rfl).2
      · exact .refl _
  | stop =>
      exact still_reaches (fun _ h => h.2) (Office.deal_reaches true hsound
        (fun _ => Errand.noConfusion) fun _ => rfl : _ ∧ Reaches _ _ (b.office.step .stop).chronicle).2
  | join i => exact .refl _
  | elapse now =>
      show Still _ (b.office.chronicle.step (.jump now))
      simp only [Chronicle.step]
      split <;> exact ⟨rfl, rfl, rfl⟩
  | observe name =>
      simp only [step, via, Office.withConnection]
      split
      · rename_i c hc
        obtain ⟨metrics, hobserve⟩ := (b.office.connector.line c).observe_eq
        have hstill := still_leave (o := b.office) name (l := b.office.connector.line c) rfl
          ((b.office.connector.line c).breaker.refresh (b.office.connector.line c).now).1 0 metrics
        rw [← hobserve] at hstill
        exact hstill
      · exact .refl _
  | read name =>
      simp only [step, via, Office.withConnection]
      split <;> exact .refl _
  | place name operation =>
      simp only [step]
      split <;> exact .refl _
  | call i draw => exact still_use steady_goOn i draw
  | hangUp i => exact still_use steady_hangUp i 0
  | _ => cases ha

/-! ## What two runs have in the cache -/

namespace Veil

/-- A connection is closed in the second of two runs. The entries of its endpoint are the same, or
the watch has stored the one of the first run since, and in the second it will not. As long as it
has not come to where it can be stopped, it stands at the same point in both. -/
structure Echo (veil : Veil) (since : Journal) (v v' : Chronicle) : Prop where
  history : ∃ later, v.journal = later ++ since
  entry : v'.shared.cache.get? veil.key = v.shared.cache.get? veil.key ∨
    ∃ m, veil.connection.resolver = some m ∧ v'.points m = none ∧ v.Bequest m veil.key since
  lag : ∀ m, veil.connection.resolver = some m → v'.points m ≠ none → v.points m = v'.points m

variable {veil : Veil} {since : Journal} {v v' u u' : Chronicle} {n : Nat}

theorem Echo.refl (veil : Veil) (v : Chronicle) : veil.Echo v.journal v v :=
  ⟨⟨[], rfl⟩, .inl rfl, fun _ _ _ => rfl⟩

theorem bequest_still {m : Nat} {key : String} (h : Still v u) :
    u.Bequest m key since ↔ v.Bequest m key since := by
  unfold Bequest
  rw [h.journal, h.cache]

theorem Echo.still (h : veil.Echo since v v') (hstill : Still v u) (hstill' : Still v' u') :
    veil.Echo since u u' where
  history := by
    rw [hstill.journal]
    exact h.history
  entry := by
    simp only [bequest_still hstill, hstill.cache, hstill'.cache, hstill'.points]
    exact h.entry
  lag := by
    rw [hstill.points, hstill'.points]
    exact h.lag

/-- The cache is cleared. -/
theorem Echo.cleared (h : veil.Echo since v v') (hpoints : u.points = v.points)
    (hpoints' : u'.points = v'.points) (hjournal : u.journal = v.journal)
    (hcache : u.shared.cache = .empty) (hcache' : u'.shared.cache = .empty) :
    veil.Echo since u u' where
  history := by
    rw [hjournal]
    exact h.history
  entry := .inl (by rw [hcache, hcache'])
  lag := by
    rw [hpoints, hpoints']
    exact h.lag

/-- The same deeds are done in both runs. -/
theorem Echo.carry (h : veil.Echo since v v') {a : Assignment} {box : Nat} {deeds : List Deed}
    {l l' : Loop} {shared shared' : Shared} (htold : Told a box deeds v.shared shared)
    (htold' : Told a box deeds v'.shared shared')
    (hentry : veil.connection.resolver = some n →
      v'.shared.cache.get? veil.key = v.shared.cache.get? veil.key)
    (hpoint : l'.point = l.point) :
    veil.Echo since (v.carry n a deeds l shared) (v'.carry n a deeds l' shared') where
  history := by
    obtain ⟨later, hhistory⟩ := h.history
    exact ⟨_, journal_carry n a deeds l shared hhistory⟩
  entry := by
    rw [shared_carry, shared_carry]
    rcases carry_bequeaths n a deeds veil.key with hkeeps | ⟨addresses, hstores⟩
    · obtain ⟨hsame, hbequest⟩ := hkeeps v l box shared htold
      rw [hsame, (hkeeps v' l' box shared' htold').1]
      rcases h.entry with hentry | ⟨m, hm, hstopped, hbefore⟩
      · exact .inl hentry
      · by_cases hmn : m = n
        · exact .inl (hentry (hmn ▸ hm))
        · exact .inr ⟨m, hm, (Function.update_of_ne hmn _ _).trans hstopped,
            hbequest m since hbefore⟩
    · exact .inl ((hstores v' l' box shared' htold').1.trans (hstores v l box shared htold).1.symm)
  lag m hm hwithin := by
    simp only [Chronicle.carry] at hwithin ⊢
    by_cases hmn : m = n
    · subst hmn
      rw [Function.update_self, Function.update_self, hpoint]
    · rw [Function.update_of_ne hmn] at hwithin ⊢
      rw [Function.update_of_ne hmn]
      exact h.lag m hm hwithin

/-- The watch of the connection does deeds in the first run only. -/
theorem Echo.alone (h : veil.Echo since v v') (hn : veil.connection.resolver = some n)
    (hstopped : v'.points n = none) {a : Assignment} {box : Nat} {deeds : List Deed} {l : Loop}
    {shared : Shared} (htold : Told a box deeds v.shared shared) :
    veil.Echo since (v.carry n a deeds l shared) v' where
  history := by
    obtain ⟨later, hhistory⟩ := h.history
    exact ⟨_, journal_carry n a deeds l shared hhistory⟩
  entry := by
    rw [shared_carry]
    rcases carry_bequeaths n a deeds veil.key with hkeeps | ⟨addresses, hstores⟩
    · obtain ⟨hsame, hbequest⟩ := hkeeps v l box shared htold
      rw [hsame]
      refine h.entry.imp id ?_
      rintro ⟨m, hm, hbetween, hbefore⟩
      exact ⟨m, hm, hbetween, hbequest m since hbefore⟩
    · obtain ⟨later, hhistory⟩ := h.history
      exact .inr ⟨n, hn, hstopped, (hstores v l box shared htold).2 later since hhistory⟩
  lag m hm hwithin := by
    obtain rfl := Option.some.inj (hn.symm.trans hm)
    exact absurd hstopped hwithin

/-- Another watch goes on. -/
theorem echo_go (h : veil.Echo since v v') (halike : veil.Alike v v') {w : Watch}
    (hw : v.watch? n = some w) (hshown : veil.hides w = false) (hspares : w.token.Spares veil.marks)
    (hother : veil.connection.resolver ≠ some n)
    (hdirectory : v'.shared.directory = v.shared.directory)
    (hread : v.points n = some .taken →
      v'.shared.cache.get? w.assignment.key = v.shared.cache.get? w.assignment.key) :
    veil.Echo since (v.step (.go n)) (v'.step (.go n)) := by
  rcases go_both halike hw hshown hspares hdirectory hread with
    ⟨hstep, hstep'⟩ | ⟨deeds, l, shared, shared', -, htold, htold', hstep, hstep'⟩
  · rw [hstep, hstep']
    exact h.still ⟨rfl, rfl, rfl⟩ ⟨rfl, rfl, rfl⟩
  · rw [hstep, hstep']
    exact h.carry htold htold' (fun hn => absurd hn hother) rfl

/-- The watch of the connection goes on: as long as it is polled it does the same in both runs, and
then it stops in the second. -/
theorem echo_go_own (h : veil.Echo since v v') (halike : veil.Alike v v')
    (hn : veil.connection.resolver = some n) {w w' : Watch} (hw : v.watch? n = some w)
    (hw' : v'.watch? n = some w') (hkey : w.assignment.key = veil.key)
    (hcancelled : v'.shared.isCancelled w'.token = true)
    (hdirectory : v'.shared.directory = v.shared.directory) :
    veil.Echo since (v.step (.go n)) (v'.step (.go n)) := by
  obtain ⟨-, hassignment, -, hbox, -⟩ : w'.number = w.number ∧ w'.assignment = w.assignment ∧
      w'.token = w.token ∧ w'.box = w.box ∧ veil.hides w' = veil.hides w := by
    obtain ⟨seen, hseen, hsame⟩ := halike.find hw
    obtain rfl := Option.some.inj (hseen.symm.trans hw')
    exact told_of_watch hsame
  rcases go_cases v n with ⟨hnone, -⟩ | ⟨_, hfound, hgoes⟩
  · rw [hw] at hnone
    cases hnone
  rcases go_cases v' n with ⟨hnone, -⟩ | ⟨_, hfound', hgoes'⟩
  · rw [hw'] at hnone
    cases hnone
  obtain rfl := Option.some.inj (hw.symm.trans hfound)
  obtain rfl := Option.some.inj (hw'.symm.trans hfound')
  rcases hgoes' with ⟨hstopped, -, hstep'⟩ | ⟨hpolled, hstep'⟩
  · -- it stops in the second run, and goes on alone in the first
    rw [hstep']
    have hstops : veil.Echo since v (v'.place n { w' with phase := .stopped }) :=
      h.still (.refl v) ⟨rfl, rfl, rfl⟩
    rcases hgoes with ⟨-, -, hstep⟩ | ⟨-, hstep⟩
    · rw [hstep]
      exact hstops.still ⟨rfl, rfl, rfl⟩ (.refl _)
    · rw [hstep]
      exact hstops.alone hn hstopped (standing_told v n w)
  · -- it is still being polled, at the same point in both
    have hwithin : v'.points n ≠ none := fun hbetween => hpolled ⟨hbetween, hcancelled⟩
    obtain ⟨point, hpoint'⟩ := Option.ne_none_iff_exists'.mp hwithin
    have hpoint : v.points n = some point := (h.lag n hn hwithin).trans hpoint'
    have hentry : v'.shared.cache.get? veil.key = v.shared.cache.get? veil.key := by
      refine h.entry.resolve_right ?_
      rintro ⟨m, hm, hbetween, -⟩
      obtain rfl := Option.some.inj (hn.symm.trans hm)
      exact hwithin hbetween
    have htold := standing_told v n w
    have htold' := standing_told v' n w'
    rw [hpoint] at hgoes htold
    rw [hpoint'] at hstep' htold'
    rcases hgoes with ⟨hbetween, -⟩ | ⟨-, hstep⟩
    · cases hbetween
    obtain ⟨hnext, hdeeds⟩ := Loop.within_congr hassignment point halike.now hdirectory
      fun _ => hkey ▸ hentry
    rw [show (Loop.standing w' (some point)).deeds v'.shared = _ from hdeeds, hassignment] at hstep'
    rw [show (Loop.standing w' (some point)).deeds v'.shared = _ from hdeeds, hassignment, hbox]
      at htold'
    rw [hstep, hstep']
    exact h.carry htold htold' (fun _ => hentry) hnext

end Veil

/-! ## Two runs -/

/-- A loop comes upon a cache entry that a connection has left in the first of two runs since, and
not in the second. -/
def Bureau.Inherits (c : Connection) (since : Journal) (b b' : Bureau) (a : Affair) : Prop :=
  ∃ n answer w m, a = .goOn n answer ∧ c.resolver = some m ∧ n ≠ m ∧
    b.office.chronicle.watch? n = some w ∧ b.office.points n = some .taken ∧
    b.office.chronicle.Bequest m w.assignment.key since ∧
    b'.shared.cache.get? w.assignment.key ≠ b.shared.cache.get? w.assignment.key

/-- This happens at some time. -/
def Bureau.Bequeaths (c : Connection) (since : Journal) (b b' : Bureau) (affairs : List Affair) :
    Prop :=
  ∃ first a rest, affairs = first ++ a :: rest ∧ Inherits c since (run first b) (run first b') a

/-- The token of the watch of a connection is cancelled. -/
def Office.Silences (c : Connection) (o : Office) : Prop :=
  ∀ m, c.resolver = some m →
    ∃ w, o.chronicle.watch? m = some w ∧ o.shared.isCancelled w.token = true

theorem Office.silences_errand {config : Config} {byAuthority : Bool} {c : Connection} {o : Office}
    (hsound : o.Sound config byAuthority) (h : o.Silences c) (e : Errand) :
    (o.step e).Silences c := by
  intro m hm
  obtain ⟨w, hw, hcancelled⟩ := h m hm
  have hgrows := grows_errand hsound e
  obtain ⟨w', hw', htoken, -⟩ := hgrows.find hw
  refine ⟨w', hw', ?_⟩
  rw [htoken]
  exact Cancellations.isCancelled_mono hgrows.cancelled hcancelled

namespace Veil

variable {veil : Veil} {config : Config} {byAuthority : Bool} {since : Journal} {b b' : Bureau}

theorem Covers.step (h : veil.Covers config byAuthority b.office) (a : Affair) :
    veil.Covers config byAuthority (b.step a).office := by
  obtain ⟨hsound, horderly, hguarded⟩ := Bureau.keeps_step
    (P := fun o => o.Orderly ∧ Office.Guarded veil.connection veil.marks o)
    (fun _ e hsound h => ⟨Office.orderly_errand hsound h.1 e, Office.guarded_errand hsound h.2 e⟩)
    h.sound ⟨h.orderly, h.guarded⟩ a
  exact ⟨hsound, horderly, hguarded⟩

/-- Two bureaus that look the same, with all that the veil hides. -/
structure Pair (veil : Veil) (config : Config) (byAuthority : Bool) (b b' : Bureau) : Prop where
  twins : veil.Twins b b'
  covers : veil.Covers config byAuthority b.office
  covers' : veil.Covers config byAuthority b'.office

theorem Pair.step (h : veil.Pair config byAuthority b b') {a : Affair}
    (hread : ∀ n answer w, a = .goOn n answer → b.office.chronicle.watch? n = some w →
      veil.hides w = false → b.office.points n = some .taken →
        b'.shared.cache.get? w.assignment.key = b.shared.cache.get? w.assignment.key) :
    veil.Pair config byAuthority (b.step a) (b'.step a) :=
  ⟨h.twins.step h.covers h.covers' a hread, h.covers.step a, h.covers'.step a⟩

/-- **Behind a wide veil no other loop reads what a connection leaves,** so nothing shows. -/
theorem Pair.run_wide (h : veil.Pair config byAuthority b b') (hwide : veil.wide = true)
    (affairs : List Affair) :
    veil.Pair config byAuthority (Bureau.run affairs b) (Bureau.run affairs b') := by
  induction affairs generalizing b b' with
  | nil => exact h
  | cons a affairs ih =>
      refine ih (h.step ?_)
      rintro n answer w - - hshown -
      refine h.twins.office.chronicle.cache w.assignment.key fun hkey => ?_
      simp [hides, hwide, hkey] at hshown

/-- A loop goes on in both runs. -/
theorem echo_goOn (h : veil.Pair config byAuthority b b') (hnarrow : veil.wide = false)
    (hecho : veil.Echo since b.office.chronicle b'.office.chronicle)
    (hsilences : b'.office.Silences veil.connection) (n : Nat) (answer : LookupAnswer)
    (hread : ∀ w, b.office.chronicle.watch? n = some w → veil.hides w = false →
      b.office.points n = some .taken →
        b'.shared.cache.get? w.assignment.key = b.shared.cache.get? w.assignment.key) :
    veil.Echo since (b.office.goOn n answer).chronicle (b'.office.goOn n answer).chronicle := by
  cases hw : b.office.chronicle.watch? n with
  | none =>
      rw [Office.goOn_none hw, Office.goOn_none (h.twins.office.chronicle.missing hw)]
      exact hecho
  | some w =>
      obtain ⟨w', hw', hseen⟩ := h.twins.office.chronicle.find hw
      obtain ⟨-, hassignment, -⟩ := told_of_watch hseen
      rw [Office.goOn_eq hw, Office.goOn_eq hw', hassignment]
      have hexpects := h.twins.office.chronicle.both
        (alike_aside b.office.chronicle b.office.shared.metrics (.only w.assignment.host answer)
          b.office.shared.lookups b.office.shared.agenda)
        (alike_aside b'.office.chronicle b'.office.shared.metrics (.only w.assignment.host answer)
          b'.office.shared.lookups b'.office.shared.agenda)
      have hechoes : veil.Echo since
          (b.office.chronicle.apply fun s =>
            { s with directory := .only w.assignment.host answer })
          (b'.office.chronicle.apply fun s =>
            { s with directory := .only w.assignment.host answer }) :=
        hecho.still ⟨rfl, rfl, rfl⟩ ⟨rfl, rfl, rfl⟩
      have hnumber := h.covers.sound.chronicle.numbered n w hw
      cases hshown : veil.hides w with
      | false =>
          have hother : veil.connection.resolver ≠ some n := by
            rintro hn
            rw [h.covers.hides_own hw hn] at hshown
            cases hshown
          exact echo_go hechoes hexpects hw hshown (h.covers.watch_spares hw hshown) hother rfl
            (hread w hw hshown)
      | true =>
          have hn : veil.connection.resolver = some n := by
            simpa [hides, hnarrow, hnumber] using hshown
          obtain ⟨own, hown, hcancelled⟩ := hsilences n hn
          obtain rfl := Option.some.inj (hw'.symm.trans hown)
          exact echo_go_own hechoes hexpects hn hw hw' (h.covers.key hw hshown) hcancelled rfl

theorem echo_step (h : veil.Pair config byAuthority b b') (hnarrow : veil.wide = false)
    (hecho : veil.Echo since b.office.chronicle b'.office.chronicle)
    (hsilences : b'.office.Silences veil.connection) (a : Affair)
    (hread : ∀ n answer w, a = .goOn n answer → b.office.chronicle.watch? n = some w →
      veil.hides w = false → b.office.points n = some .taken →
        b'.shared.cache.get? w.assignment.key = b.shared.cache.get? w.assignment.key) :
    veil.Echo since (b.step a).office.chronicle (b'.step a).office.chronicle := by
  by_cases hstirs : a.stirs = false
  · exact hecho.still (Bureau.still_step h.covers.sound hstirs)
      (Bureau.still_step h.covers'.sound hstirs)
  cases a with
  | goOn n answer =>
      exact echo_goOn h hnarrow hecho hsilences n answer fun w => hread n answer w rfl
  | sweep n =>
      show veil.Echo since (b.office.chronicle.step (.sweep n))
        (b'.office.chronicle.step (.sweep n))
      rcases (alike_sweep h.twins.office.chronicle h.covers.janitor_spares n).2 with
        ⟨hcache, hcache'⟩ | ⟨hcache, hcache'⟩
      · exact hecho.still ⟨rfl, rfl, hcache⟩ ⟨rfl, rfl, hcache'⟩
      · exact hecho.cleared rfl rfl rfl hcache hcache'
  | overrun n =>
      simp only [Bureau.step, h.twins.office.isDue n]
      split
      · exact hecho.cleared rfl rfl rfl rfl rfl
      · exact hecho
  | clear => exact hecho.cleared rfl rfl rfl rfl rfl
  | _ => exact absurd rfl hstirs

/-- **As long as nobody inherits anything, nothing of a closed connection shows.** -/
theorem Pair.run_narrow (h : veil.Pair config byAuthority b b') (hnarrow : veil.wide = false)
    (hecho : veil.Echo since b.office.chronicle b'.office.chronicle)
    (hsilences : b'.office.Silences veil.connection) (affairs : List Affair)
    (hnone : ¬ Bureau.Bequeaths veil.connection since b b' affairs) :
    veil.Pair config byAuthority (Bureau.run affairs b) (Bureau.run affairs b') := by
  -- what the runs differ in is in the echo; it goes on until someone inherits, and nobody does
  induction affairs generalizing b b' with
  | nil => exact h
  | cons a affairs ih =>
      have hread : ∀ n answer w, a = .goOn n answer → b.office.chronicle.watch? n = some w →
          veil.hides w = false → b.office.points n = some .taken →
            b'.shared.cache.get? w.assignment.key = b.shared.cache.get? w.assignment.key := by
        intro n answer w ha hw hshown hpoint
        -- a loop that reads an entry in which the runs differ inherits it
        by_cases hkey : w.assignment.key = veil.key
        · by_contra hdiffers
          rcases hecho.entry with hsame | ⟨m, hm, -, hbequest⟩
          · exact hdiffers (hkey ▸ hsame)
          · refine hnone ⟨[], a, affairs, rfl, n, answer, w, m, ha, hm, ?_, hw, hpoint,
              hkey ▸ hbequest, hdiffers⟩
            rintro rfl
            rw [h.covers.hides_own hw hm] at hshown
            cases hshown
        · exact h.twins.office.chronicle.cache w.assignment.key hkey
      refine ih (h.step hread) (echo_step h hnarrow hecho hsilences a hread) ?_ ?_
      · exact (Bureau.keeps_step (fun _ e hsound h => Office.silences_errand hsound h e)
          h.covers'.sound hsilences a).2
      · rintro ⟨first, later, rest, hsplit, hinherits⟩
        exact hnone ⟨a :: first, later, rest, congrArg (a :: ·) hsplit, hinherits⟩

end Veil

end Dialer
