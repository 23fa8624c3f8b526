import Dialer.Proofs.Connector.Bequests
import Dialer.Proofs.Connector.Shutdown

/-!
# Stopping all connections, and closing one

A connector can be stopped as a whole, and a connection of it closed. The one reaches everything
that goes on there, also on connections that are made later (`Bureau.Halts`). The other is seen on
no other connection, in no way but one: had the connection not been closed, its watch might have
gone on to store addresses, and whoever looks for its endpoint would have found them
(`Bureau.Spares`).

What the closing of a connection changes is told by comparing two runs in which the same happens,
but for the closing.
-/

namespace Dialer

open Resolver Chronicle

namespace Bureau

variable {config : Config} {byAuthority : Bool} {b : Bureau}

/-! ## All connections -/

/-- A connector has been stopped at a bureau. After a while it has come to an end, and stays there
whatever happens. -/
structure Halts (b ended later : Bureau) (meanwhile : List Affair) : Prop where
  /-- A loop that is not being polled, as it is after three steps at most, does nothing. -/
  loops : ∀ n, ended.office.points n = none ∨ 3 ≤ meanwhile.countP (·.isStepOf n) →
    later.office.journal.of n = ended.office.journal.of n ∧
      ∀ w, ended.office.chronicle.watch? n = some w →
        later.shared.box w.box = ended.shared.box w.box
  /-- If no loop was being polled when the connector was stopped, none has done anything since. -/
  silence : (∀ n, b.office.points n = none) → later.office.journal = b.office.journal ∧
    (later.shared.cache = b.shared.cache ∨ later.shared.cache = .empty)
  /-- No attempt of a call is polled, nor is another one begun. -/
  calls : ∀ (i : Nat) (v : Visit), ended.visits[i]? = some v →
    ∃ v', later.visits[i]? = some v' ∧ v.Ends v'
  newCalls : ∀ (i : Nat) (v' : Visit), ended.visits.length ≤ i → later.visits[i]? = some v' →
    ∃ v, Awaits v ∧ v.Ends v'
  /-- A call that goes on is cancelled. -/
  cancels : ∀ (i : Nat) (v : Visit) (c : Connection) (draw : Float),
    later.visits[i]? = some v → later.host? v = some c → v.session.dropped = false →
      v.session.call.isOver = false →
        ∃ v', (later.step (.call i draw)).visits[i]? = some v' ∧
          v'.session.call.phase = .over (.error .cancelled)
  /-- A janitor that goes on ends, and clears nothing. -/
  sweeps : ∀ n, (later.step (.sweep n)).shared = later.shared ∧
    ∀ j, (later.step (.sweep n)).connector.exchange.janitors[n]? = some j → j.running = false
  /-- The first shutdown has taken the janitor, and later ones have found none. -/
  takes : ∀ (i : Nat) (s : Stopping), later.stoppings[i]? = some s →
    (i = 0 → ∀ (n : Nat) (j : Janitor),
      later.connector.exchange.janitors[n]? = some j → s.awaits = some n) ∧
    (i ≠ 0 → s.awaits = none)
  /-- A shutdown returns once the janitor that it has taken, if it has, has gone on. -/
  returns : ∀ (i : Nat) (s : Stopping), later.stoppings[i]? = some s →
    ∃ s', (run (s.awaits.toList.map .sweep ++ [.join i]) later).stoppings[i]? = some s' ∧
      s'.returned = true
  /-- Once the first shutdown has returned, no janitor clears anything any more, also not without a
  look at its token. -/
  clears : ∀ s : Stopping, ended.stoppings[0]? = some s → s.returned = true →
    ∀ n, later.step (.overrun n) = later

theorem ended_stop (hsound : b.office.Sound config byAuthority) (horderly : b.office.Orderly) :
    (b.step .stop).Ended config byAuthority := by
  obtain ⟨hsound', horderly'⟩ := orderly_step hsound horderly .stop
  exact ⟨hsound', horderly', Office.shut_stop hsound horderly⟩

/-- A loop that is not being polled publishes nothing any more. -/
theorem loop_ends (h : b.Ended config byAuthority) {n : Nat} (hbetween : b.office.points n = none)
    (affairs : List Affair) :
    (run affairs b).office.journal.of n = b.office.journal.of n ∧
      ∀ w, b.office.chronicle.watch? n = some w →
        (run affairs b).shared.box w.box = b.shared.box w.box := by
  have hjournal : (run affairs b).office.journal.of n = b.office.journal.of n :=
    (fades_run h.sound h.shut n affairs).journal hbetween
  refine ⟨hjournal, fun w hw => ?_⟩
  obtain ⟨w', hw', -, hbox⟩ := (grows_run h.sound affairs).find hw
  have hthen := (h.run affairs).sound.chronicle.published n w' hw'
  have hbefore := h.sound.chronicle.published n w hw
  rw [hbox, Journal.publications,
    show (run affairs b).office.chronicle.journal.of n = _ from hjournal] at hthen
  exact congrArg Outbox.mk (hthen.trans hbefore.symm)

theorem halts_run (hsound : b.office.Sound config byAuthority) (horderly : b.office.Orderly)
    (hattended : b.Attended) (meanwhile rest : List Affair) :
    Halts b (run meanwhile (b.step .stop))
      (run rest (run meanwhile (b.step .stop))) meanwhile := by
  have hstopped := ended_stop hsound horderly
  have hended := hstopped.run meanwhile
  have hlater := hended.run rest
  have htaken := (hattended.step hsound .stop).run hstopped.sound meanwhile
  constructor
  case loops =>
    intro n hpolled
    refine loop_ends hended ?_ rest
    rcases hpolled with hbetween | hsteps
    · exact hbetween
    · have hleft := left_run hstopped.sound hstopped.shut n meanwhile
      have hthree : Point.left ((b.step .stop).office.points n) ≤ 3 := by
        rcases (b.step .stop).office.points n with _ | (_ | _ | _) <;> simp [Point.left]
      exact left_eq_zero.mp (by omega)
  case silence =>
    intro hrests
    have hhushed := hushed_run hstopped.sound hstopped.shut hrests (meanwhile ++ rest)
    rw [run_append] at hhushed
    have hstill := still_step hsound (a := .stop) rfl
    refine ⟨hhushed.journal.trans hstill.journal, hhushed.cache.imp_left (·.trans hstill.cache)⟩
  case calls => exact fun i v hv => visit_run hended rest hv
  case newCalls => exact fun i v' hnew hv' => visit_later hended rest hnew hv'
  case cancels =>
    exact fun i v c draw hv hhost hopen hgoes => call_ends hlater hv hhost hopen hgoes draw
  case sweeps => exact sweep_ends hlater
  case takes =>
    have hstays := htaken.run hended.sound rest
    exact fun i s hs => ⟨fun hfirst => hstays.first s (hfirst ▸ hs), hstays.later i s hs⟩
  case returns => exact fun i s hs => join_returns hlater hs
  case clears =>
    exact fun s hfirst hreturned => overrun_ends hended.sound htaken hfirst hreturned rest

/-! ## One connection -/

/-- All that two bureaus have in common but for a connection. That it has left nothing to others is
what `apart` stands for. -/
structure Spares (c : Connection) (apart : Prop) (b b' : Bureau) : Prop where
  names : ∀ name, (b'.connector.connection? name).map (·.token) =
    (b.connector.connection? name).map (·.token)
  /-- Connections are the same, but for what they have read of their addresses. -/
  connections : ∀ name other, b.connector.connection? name = some other → other.token ≠ c.token →
    ∃ updates, b'.connector.connection? name = some { other with updates }
  /-- The calls on them are the same, and so is how they have ended. -/
  visits : ∀ (i : Nat) (v : Visit), v.token ≠ c.token →
    (b'.visits[i]? = some v ↔ b.visits[i]? = some v)
  /-- What they are published is the same. -/
  published : ∀ name other, b.connector.connection? name = some other → other.token ≠ c.token →
    apart ∨ other.target.endpoint ≠ c.target.endpoint →
      b'.connector.connection? name = some other ∧
        b'.shared.box other.box = b.shared.box other.box
  /-- Their watches are the same, and do the same. -/
  watches : ∀ n w, b.office.chronicle.watch? n = some w → c.resolver ≠ some n →
    apart ∨ w.assignment.key ≠ c.target.endpoint →
      b'.office.chronicle.watch? n = some w ∧ b'.office.journal.of n = b.office.journal.of n

end Bureau

namespace Veil.Pair

variable {veil : Veil} {config : Config} {byAuthority : Bool} {b b' : Bureau}

theorem names (h : veil.Pair config byAuthority b b') (name : String) :
    (b'.connector.connection? name).map (·.token) =
      (b.connector.connection? name).map (·.token) := by
  have hsame := congrArg (Option.map Connection.token) (h.twins.office.connections name)
  rwa [Option.map_map, Option.map_map] at hsame

theorem connections (h : veil.Pair config byAuthority b b') {name : String} {other : Connection}
    (hother : b.connector.connection? name = some other)
    (htoken : other.token ≠ veil.connection.token) :
    ∃ updates, b'.connector.connection? name = some { other with updates } := by
  obtain ⟨c', hc', hface⟩ := h.twins.office.find hother
  obtain ⟨hsame, hbreaker, -⟩ := told_of_face hface
  refine ⟨c'.updates, hc'.trans (congrArg some ?_)⟩
  rw [← hsame.target, ← hsame.resolver, ← hsame.box, ← hbreaker htoken, ← hsame.policy,
    ← hsame.token]

theorem visits (h : veil.Pair config byAuthority b b') {i : Nat} {v : Visit}
    (htoken : v.token ≠ veil.connection.token) :
    b'.visits[i]? = some v ↔ b.visits[i]? = some v := by
  have hsame {b b' : Bureau} (h : veil.Twins b b') (hv : b.visits[i]? = some v) :
      b'.visits[i]? = some v := by
    obtain ⟨v', hv', hseen⟩ := h.find hv
    rwa [(told_of_visit hseen).2.2 htoken] at hv'
  exact ⟨hsame h.twins.symm, hsame h.twins⟩

theorem published (h : veil.Pair config byAuthority b b') {name : String} {other : Connection}
    (hother : b.connector.connection? name = some other)
    (htoken : other.token ≠ veil.connection.token) (hshown : veil.blurs other = false) :
    b'.connector.connection? name = some other ∧
      b'.shared.box other.box = b.shared.box other.box := by
  obtain ⟨c', hc', hface⟩ := h.twins.office.find hother
  obtain rfl := eq_of_face hface htoken hshown
  exact ⟨hc', h.twins.office.chronicle.boxes _ (h.covers.showsBox hother hshown)⟩

theorem watches (h : veil.Pair config byAuthority b b') {n : Nat} {w : Watch}
    (hw : b.office.chronicle.watch? n = some w) (hshown : veil.hides w = false) :
    b'.office.chronicle.watch? n = some w ∧
      b'.office.journal.of n = b.office.journal.of n := by
  refine ⟨h.twins.office.chronicle.shown hw hshown, (h.twins.office.chronicle.loops n ?_).2⟩
  intro u hu
  rwa [Option.some.inj (hu.symm.trans hw)]

end Veil.Pair

namespace Bureau

variable {config : Config} {byAuthority : Bool} {b : Bureau}

/-- Closing a connection cancels the token of its watch. -/
theorem silences_close (hsound : b.office.Sound config byAuthority) {name : String} {c : Connection}
    {marks : List Nat} (hc : b.connector.connection? name = some c)
    (hguarded : Office.Guarded c marks b.office) :
    (b.step (.order (.close name))).office.Silences c := by
  intro n hn
  obtain ⟨w, hw⟩ : ∃ w, b.office.chronicle.watch? n = some w :=
    ⟨_, List.getElem?_eq_getElem (hguarded.watch n hn)⟩
  have hstep : (b.step (.order (.close name))).office.chronicle =
      (b.office.chronicle.step (.cancel c.token)).step (.close n) := by
    have hfound : b.office.connector.connection? name = some c := hc
    simp only [Bureau.step, Errand.isOrder, if_pos, via, Office.step, Office.withConnection, hfound]
    show (⟨(b.office.connector.exchange.cancel c.token).close c.resolver, _, _⟩ : Chronicle) = _
    rw [hn]
    rfl
  have hfirst : (b.office.chronicle.step (.cancel c.token)).watch? n = some w :=
    ((unmoved_cancel (n + 1) _ c.token).1.watches n (Nat.ne_of_lt n.lt_succ_self)).trans hw
  obtain ⟨hunmoved, htokens⟩ := unmoved_cancel (n + 1)
    (b.office.chronicle.step (.cancel c.token)) w.token
  rw [← close_eq hfirst, ← hstep] at hunmoved htokens
  refine ⟨w, (hunmoved.watches n (Nat.ne_of_lt n.lt_succ_self)).trans hfirst, ?_⟩
  show (b.step (.order (.close name))).office.chronicle.shared.tokens.isCancelled w.token = true
  rw [htokens]
  exact Cancellations.isCancelled_cancel_of_heeds _
    ⟨hsound.chronicle.rooted n w hw, List.suffix_rfl⟩

/-- **Closing a connection is seen on no other.** -/
theorem spares_run (hsound : b.office.Sound config byAuthority) (horderly : b.office.Orderly)
    {name : String} {c : Connection} (hc : b.connector.connection? name = some c)
    (later : List Affair) :
    Spares c (¬ Bequeaths c b.office.journal b (b.step (.order (.close name))) later)
      (run later b) (run later (b.step (.order (.close name)))) := by
  obtain ⟨marks, hguarded⟩ := horderly.guarded name c hc
  have hstart (wide : Bool) : Veil.Pair ⟨c, marks, wide⟩ config byAuthority b
      (b.step (.order (.close name))) := by
    have hcovers : Veil.Covers ⟨c, marks, wide⟩ config byAuthority b.office :=
      ⟨hsound, horderly, hguarded⟩
    exact ⟨.close hcovers hc, hcovers, hcovers.step _⟩
  -- what holds in any case is seen through the wide veil, the rest through the narrow one
  have hwide := (hstart true).run_wide rfl later
  have hnarrow
      (hnone : ¬ Bequeaths c b.office.journal b (b.step (.order (.close name))) later) := by
    have hecho := (Veil.Echo.refl ⟨c, marks, false⟩ b.office.chronicle).still (.refl _)
      (still_step hsound (a := .order (.close name)) rfl)
    exact (hstart false).run_narrow rfl hecho (silences_close hsound hc hguarded) later hnone
  constructor
  case names => exact hwide.names
  case connections => exact fun name other hother htoken => hwide.connections hother htoken
  case visits => exact fun i v htoken => hwide.visits htoken
  case published =>
    intro name other hother htoken hapart
    rcases hapart with hnone | hendpoint
    · exact (hnarrow hnone).published hother htoken (decide_eq_false htoken)
    · exact hwide.published hother htoken (decide_eq_false hendpoint)
  case watches =>
    intro n w hw hn hapart
    rcases hapart with hnone | hkey
    · have hnumber := (hnarrow hnone).covers.sound.chronicle.numbered n w hw
      exact (hnarrow hnone).watches hw (decide_eq_false (hnumber ▸ hn))
    · exact hwide.watches hw (decide_eq_false hkey)

/-! ## Both -/

/-- The first loop goes on by some steps, and its lookup is answered. -/
def polls (steps : Nat) : List Affair :=
  List.replicate steps (.goOn 0 ⟨.zero, .ips ["1.1.1.1"]⟩)

/-- A connector with a builder for hosts that knows nothing of its shutdown. -/
def detached : Office :=
  ⟨(Connector.equip .standard false (fun _ => 0.0)
    (.start (.only "svc" ⟨.zero, .ips ["1.1.1.1"]⟩))).register (.dns .usual), fun _ => none, []⟩

/-- What a connection would still have stored is found by another one with its endpoint. -/
example :
    let b := run [.order (.connect "a" "svc:80"), .order (.connect "b" "svc:80")]
      (start .standard ⟨[]⟩ false fun _ => 0.0)
    let later := List.replicate 5 (.goOn 0 ⟨.zero, .ips ["1.1.1.1"]⟩) ++
      List.replicate 5 (.goOn 1 ⟨.zero, .ips ["2.2.2.2"]⟩)
    ((run later b).shared.box 1).published = [⟨0, [⟨"1.1.1.1:80"⟩]⟩] ∧
      ((run later (b.step (.order (.close "a")))).shared.box 1).published =
        [⟨0, [⟨"2.2.2.2:80"⟩]⟩] := by
  decide +kernel

end Bureau

end Dialer
