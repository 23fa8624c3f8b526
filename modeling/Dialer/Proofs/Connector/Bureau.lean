import Dialer.Proofs.Call.Footprint
import Dialer.Proofs.Call.Switchboard
import Dialer.Proofs.Connector.Office

/-!
# A connector with its calls

A bureau is an office with the sessions on its connections and the shutdowns that have begun there.
Whatever happens is up to the outside, one affair at a time and in any order: connections are made,
dropped and closed, sessions begin, go on and are dropped, shutdowns begin and go on, loops and
janitors go on, and time passes. An affair brings along what comes from outside with it: a loop that
goes on the answer to the lookup that it may begin, a session the draw for its next delay.

A session holds on to the connection it began on; it can only go on as long as that is there.

The office of a bureau is run by errands (`step_errands`), so what holds of every office holds here.
-/

namespace Dialer

open Resolver

/-- A directory with one answer for a host. -/
def Directory.only (host : String) (answer : LookupAnswer) : Directory :=
  ⟨[(host, [answer])]⟩

/-- Connections are made or changed, or a builder is registered. -/
def Errand.isOrder : Errand → Bool
  | .stop | .use _ _ _ | .background _ => false
  | _ => true

namespace Office

/-- The next lookup of a watch is to be answered so. -/
def expect (o : Office) (n : Nat) (answer : LookupAnswer) : Office :=
  match o.chronicle.watch? n with
  | some w => o.step
    (.background (.elsewhere o.shared.metrics (.only w.assignment.host answer)))
  | none => o

/-- A watch goes on by one step. -/
def goOn (o : Office) (n : Nat) (answer : LookupAnswer) : Office :=
  (o.expect n answer).step (.background (.go n))

/-- The office that a line leaves behind. -/
def leave (o : Office) (name : String) (l : Line) : Office :=
  { o with connector := o.connector.withLine name l }

/-- Is a janitor to clear the cache by now, as far as it knows? -/
def isDue (o : Office) (n : Nat) : Bool :=
  match o.connector.exchange.janitors[n]? with
  | some j => j.running && j.rhythm.firesAt ≤ o.shared.now
  | none => false

end Office

/-- A session on a connection. -/
structure Visit where
  /-- The name of the connection. -/
  name : String
  /-- The token of the connection, which tells it from others of the same name. -/
  token : Token
  session : Session

/-- An office with the sessions on its connections, and its shutdowns. -/
structure Bureau where
  office : Office
  visits : List Visit
  /-- The shutdowns, in the order in which they began. -/
  stoppings : List Stopping

/-- What may happen. -/
inductive Affair where
  | order (e : Errand)
  /-- A shutdown begins. -/
  | stop
  /-- A shutdown goes on. -/
  | join (i : Nat)
  /-- A watch goes on; a lookup that it begins is answered so. -/
  | goOn (n : Nat) (answer : LookupAnswer)
  | sweep (n : Nat)
  /-- A janitor that is due clears the cache without a look at its token. -/
  | overrun (n : Nat)
  | clear
  | elapse (now : Nat)
  | observe (name : String)
  /-- The addresses published last are read. -/
  | read (name : String)
  | place (name : String) (operation : Operation)
  /-- A session goes on; a delay that it schedules is drawn so. -/
  | call (i : Nat) (draw : Float)
  | hangUp (i : Nat)

namespace Bureau

def start (config : Config) (directory : Directory) (byAuthority : Bool) (draw : Nat → Float) :
    Bureau :=
  ⟨.start config directory byAuthority draw, [], []⟩

def connector (b : Bureau) : Connector :=
  b.office.connector

def shared (b : Bureau) : Shared :=
  b.connector.exchange.shared

def via (b : Bureau) (f : Office → Office) : Bureau :=
  { b with office := f b.office }

/-- The connection that a visit is on, if it is there. -/
def host? (b : Bureau) (v : Visit) : Option Connection :=
  (b.connector.connection? v.name).filter (·.token = v.token)

/-- A connection in use, with the draw for the next delay. -/
def line (b : Bureau) (draw : Float) (connection : Connection) : Line :=
  { b.connector.line connection with draw := fun _ => draw }

/-- Has a session use its connection, if neither is dropped. -/
def use (b : Bureau) (i : Nat) (draw : Float) (f : Session → Line → Session × Line) : Bureau :=
  match b.visits[i]? with
  | some v =>
    match b.host? v with
    | some connection =>
      if v.session.dropped then b
      else
        let (session, l) := f v.session (b.line draw connection)
        { b with office := b.office.leave v.name l, visits := b.visits.set i { v with session } }
    | none => b
  | none => b

/-- A session goes on. -/
def goOn (session : Session) (l : Line) : Session × Line :=
  let (call, l) := session.call.step l
  (⟨call, false⟩, l)

/-- A session is dropped. -/
def hangUp (session : Session) (l : Line) : Session × Line :=
  (⟨session.call, true⟩, session.call.abandon l)

def step (b : Bureau) : Affair → Bureau
  | .order e => if e.isOrder then b.via (·.step e) else b
  | .stop => { b.via (·.step .stop) with
    stoppings := b.stoppings ++ [b.connector.shutDown.1] }
  | .join i => { b with stoppings := b.stoppings.modify i b.connector.join }
  | .goOn n answer => b.via (·.goOn n answer)
  | .sweep n => b.via (·.step (.background (.sweep n)))
  | .overrun n => if b.office.isDue n then b.via (·.step (.background .clear)) else b
  | .clear => b.via (·.step (.background .clear))
  | .elapse now => b.via (·.step (.background (.jump now)))
  | .observe name => b.via (·.withConnection name fun c connection => (c.observe name connection).1)
  | .read name => b.via (·.withConnection name fun c connection =>
    let updates := ((c.exchange.shared.box connection.box).read connection.updates).2
    c.update name { connection with updates })
  | .place name operation =>
    match b.connector.connection? name with
    | some connection => { b with
      visits := b.visits ++
        [⟨name, connection.token, ⟨.start operation connection.policy, false⟩⟩] }
    | none => b
  | .call i draw => b.use i draw goOn
  | .hangUp i => b.use i 0 hangUp

def run (affairs : List Affair) (b : Bureau) : Bureau :=
  affairs.foldl step b

theorem run_append (first second : List Affair) (b : Bureau) :
    run (first ++ second) b = run second (run first b) :=
  List.foldl_append

end Bureau

/-! ## The office of a bureau -/

namespace Connector

/-! Connections are found by their names; which others there are does not matter. -/

theorem connection?_update (c : Connector) (name : String) (after : Connection) (other : String) :
    (c.update name after).connection? other =
      if other = name then (c.connection? name).map fun _ => after else c.connection? other := by
  unfold connection? update
  dsimp only
  induction c.connections with
  | nil => split <;> rfl
  | cons entry rest ih =>
      obtain ⟨key, value⟩ := entry
      rw [List.map_cons]
      by_cases hkey : key = name
      · subst hkey
        by_cases hother : other = key
        · subst hother
          simp only [if_pos, List.lookup_cons_self, Option.map_some]
        · rw [if_neg hother] at ih ⊢
          rw [if_pos rfl, List.lookup_cons, List.lookup_cons, beq_false_of_ne hother]
          exact ih
      · rw [if_neg hkey, List.lookup_cons, List.lookup_cons (a := name),
          beq_false_of_ne (Ne.symm hkey)]
        by_cases hother : other = key
        · subst hother
          rw [if_neg hkey, List.lookup_cons_self, beq_self_eq_true]
        · rw [List.lookup_cons, beq_false_of_ne hother]
          exact ih

theorem connection?_drop (c : Connector) (name other : String) :
    (c.drop name).connection? other = if other = name then none else c.connection? other := by
  unfold drop
  cases hfound : c.connection? name with
  | none =>
      dsimp only
      split
      · rename_i hother
        rw [hother, hfound]
      · rfl
  | some connection =>
      show List.lookup other (c.connections.filter (·.1 != name)) = _
      exact Office.lookup_filter c.connections name other

theorem connection?_append {c : Connector} {name : String} (hnone : c.connection? name = none)
    (connection : Connection) (other : String) :
    connection? { c with connections := c.connections ++ [(name, connection)] } other =
      if other = name then some connection else c.connection? other := by
  unfold connection? at hnone ⊢
  dsimp only
  rw [List.lookup_append, List.lookup_cons]
  by_cases hother : other = name
  · subst hother
    rw [if_pos rfl, hnone, beq_self_eq_true, Option.none_or]
  · rw [if_neg hother, beq_false_of_ne hother]
    exact Option.or_none

end Connector

namespace Office

variable {o : Office} {n : Nat} {w : Watch}

theorem run_cons (e : Errand) (errands : List Errand) (o : Office) :
    run (e :: errands) o = run errands (o.step e) := rfl

theorem run_refresh {name : String} {c : Connection}
    (hfound : o.connector.connection? name = some c) (asks : Nat) :
    run (List.replicate asks (.refresh name)) o =
      { o with connector := o.connector.via (·.refresh c.resolver asks) } := by
  induction asks generalizing o with
  | zero =>
      cases hresolver : c.resolver <;> rfl
  | succ asks ih =>
      have hstep : o.step (.refresh name) =
          { o with connector := o.connector.refresh c 1 } := by
        simp only [step, withConnection, hfound]
      have hrest := ih (o := { o with connector := o.connector.refresh c 1 }) hfound
      rw [List.replicate_succ, run_cons, hstep, hrest]
      have hadd := Exchange.refresh_add o.connector.exchange c.resolver 1 asks
      rw [Nat.add_comm] at hadd
      simp only [Connector.via, Connector.refresh, hadd]

/-- A line that has been used is put back by errands. -/
theorem leave_errands {name : String} {c : Connection}
    (hfound : o.connector.connection? name = some c) {l : Line}
    (hexchange : l.exchange = o.connector.exchange) (hconnection : l.connection = c)
    (breaker : Breaker) (asks : Nat) (metrics : Metrics) :
    ∃ errands, run errands o = o.leave name (l.after breaker asks metrics) := by
  subst hconnection
  have huse : o.step (.use name breaker l.connection.updates) =
      { o with connector := o.connector.update name { l.connection with breaker } } := by
    simp only [step, withConnection, hfound]
  have hrefresh := run_refresh (o := { o with
    connector := o.connector.update name { l.connection with breaker } })
      (by rw [Connector.connection?_update, if_pos rfl, hfound]; rfl) asks
  refine ⟨.use name breaker l.connection.updates :: (List.replicate asks (.refresh name) ++
    [.background (.elsewhere metrics
      (o.connector.exchange.refresh l.connection.resolver asks).shared.directory)]), ?_⟩
  rw [run_cons, run_append, huse, hrefresh]
  unfold leave Line.after Connector.withLine
  rw [hexchange]
  rfl

/-- What is left behind, in terms of the chronicle. -/
theorem leave_eq {l : Line} (hexchange : l.exchange = o.connector.exchange) (name : String)
    (breaker : Breaker) (asks : Nat) (metrics : Metrics) :
    o.leave name (l.after breaker asks metrics) =
      let left := o.withChronicle ({ o.chronicle with
        exchange := o.connector.exchange.refresh l.connection.resolver asks }.apply
          fun s => { s with metrics })
      { left with connector := left.connector.update name { l.connection with breaker } } := by
  unfold leave Connector.withLine Line.after
  rw [hexchange]
  rfl

theorem goOn_none (hw : o.chronicle.watch? n = none) (answer : LookupAnswer) :
    o.goOn n answer = o := by
  have hexpect : o.expect n answer = o := by
    unfold expect
    rw [hw]
  have hgo : o.chronicle.go n = o.chronicle := by
    unfold Chronicle.go
    rw [hw]
  rw [goOn, hexpect]
  show o.withChronicle (o.chronicle.go n) = o
  rw [hgo]
  rfl

theorem goOn_eq (hw : o.chronicle.watch? n = some w) (answer : LookupAnswer) :
    o.goOn n answer = o.withChronicle ((o.chronicle.apply fun s =>
      { s with directory := .only w.assignment.host answer }).step (.go n)) := by
  have hexpect : o.expect n answer = o.withChronicle (o.chronicle.apply fun s =>
      { s with directory := .only w.assignment.host answer }) := by
    unfold expect
    rw [hw]
    rfl
  rw [goOn, hexpect]
  rfl

end Office

namespace Bureau

variable {b : Bureau}

theorem host?_eq_some {v : Visit} {c : Connection} :
    b.host? v = some c ↔ b.connector.connection? v.name = some c ∧ c.token = v.token := by
  unfold host?
  rw [Option.filter_eq_some_iff, decide_eq_true_eq]

/-- What a session does is the same on lines that go on the same, which it leaves used in the same
way. -/
structure Steady (f : Session → Line → Session × Line) : Prop where
  result {l l' : Line} (h : l.Like l') (session : Session) : (f session l').1 = (f session l).1
  used {l l' : Line} (h : l.Like l') (session : Session) :
    l.Used l' (f session l).2 (f session l').2

theorem steady_goOn : Steady goOn where
  result h session := congrArg (Session.mk · false) (Call.step_like h session.call).1
  used h session := (Call.step_like h session.call).2

theorem steady_hangUp : Steady hangUp where
  result _ _ := rfl
  used h session := Call.abandon_like h session.call

/-- A line is like itself, and like those of other bureaus where the breaker, the time and the
cancelled tokens are the same. -/
theorem line_like {b b' : Bureau} {c c' : Connection}
    (hconfig : b'.connector.config = b.connector.config) (hnow : b'.shared.now = b.shared.now)
    (hbreaker : c'.breaker = c.breaker)
    (hcancelled : b'.shared.isCancelled c'.token = b.shared.isCancelled c.token) (draw : Float) :
    (b.line draw c).Like (b'.line draw c') where
  breaker := hbreaker
  callbacks := congrArg (fun config : Config => BreakerCallbacks.ofConfig config.breaker) hconfig
  callTimeout := congrArg (fun config : Config => config.timeouts.callTimeout) hconfig
  jitterRatio := congrArg (fun config : Config => config.retries.jitterRatio) hconfig
  draw _ _ := rfl
  now := hnow
  cancelled := hcancelled
  usual := BreakerCallbacks.usual_ofConfig _

/-- A visit uses its connection if both are there and its session is not dropped, and else nothing
happens. -/
theorem use_cases (b : Bureau) (i : Nat) (draw : Float) (f : Session → Line → Session × Line) :
    b.use i draw f = b ∨ ∃ v c, b.visits[i]? = some v ∧ b.host? v = some c ∧
      v.session.dropped = false ∧
      b.use i draw f = { b with
        office := b.office.leave v.name (f v.session (b.line draw c)).2,
        visits := b.visits.set i { v with session := (f v.session (b.line draw c)).1 } } := by
  unfold use
  cases hvisit : b.visits[i]? with
  | none => exact .inl rfl
  | some v =>
      cases hhost : b.host? v with
      | none =>
          refine .inl ?_
          simp only [hhost]
      | some c =>
          cases hdropped : v.session.dropped with
          | false =>
              refine .inr ⟨v, c, rfl, hhost, hdropped, ?_⟩
              simp only [hhost, hdropped, Bool.false_eq_true, if_false]
          | true =>
              refine .inl ?_
              simp only [hhost, hdropped, if_true]

/-- A session that does the same on lines that go on the same has no other way to leave its line
than after some use. -/
theorem Steady.use_cases {f : Session → Line → Session × Line} (hf : Steady f) (b : Bureau)
    (i : Nat) (draw : Float) :
    b.use i draw f = b ∨ ∃ v c session breaker asks metrics, b.visits[i]? = some v ∧
      b.host? v = some c ∧
      b.use i draw f = { b with
        office := b.office.leave v.name ((b.line draw c).after breaker asks metrics),
        visits := b.visits.set i { v with session } } := by
  rcases Bureau.use_cases b i draw f with hsame | ⟨v, c, hvisit, hhost, -, huse⟩
  · exact .inl hsame
  · have hused := hf.used (line_like (b := b) (c := c) rfl rfl rfl rfl draw) v.session
    rw [huse]
    generalize f v.session (b.line draw c) = made at hused ⊢
    obtain ⟨session, l⟩ := made
    obtain ⟨breaker, asks, metrics, -⟩ := hused
    exact .inr ⟨v, c, session, breaker, asks, metrics, hvisit, hhost, rfl⟩

/-- What the use of a line comes to. -/
theorem use_errands (b : Bureau) (i : Nat) (draw : Float) {f : Session → Line → Session × Line}
    (hf : Steady f) : ∃ errands, (b.use i draw f).office = Office.run errands b.office := by
  rcases hf.use_cases b i draw with hsame | ⟨v, c, session, breaker, asks, metrics, -, hhost, huse⟩
  · exact ⟨[], congrArg office hsame⟩
  · obtain ⟨errands, herrands⟩ := Office.leave_errands (host?_eq_some.mp hhost).1
      (l := b.line draw c) rfl rfl breaker asks metrics
    exact ⟨errands, (congrArg office huse).trans herrands.symm⟩

/-- **What happens at a bureau comes to errands of its office.** -/
theorem step_errands (b : Bureau) (a : Affair) :
    ∃ errands, (b.step a).office = Office.run errands b.office := by
  cases a with
  | order e =>
      simp only [step]
      split
      · exact ⟨[e], rfl⟩
      · exact ⟨[], rfl⟩
  | stop => exact ⟨[.stop], rfl⟩
  | join i => exact ⟨[], rfl⟩
  | goOn n answer =>
      -- the answer that a lookup will get is set by an errand of its own
      simp only [step, via, Office.goOn, Office.expect]
      split
      · rename_i w hwatch
        exact ⟨[.background (.elsewhere b.office.shared.metrics (.only w.assignment.host answer)),
          .background (.go n)], rfl⟩
      · exact ⟨[.background (.go n)], rfl⟩
  | sweep n => exact ⟨[.background (.sweep n)], rfl⟩
  | overrun n =>
      simp only [step]
      split
      · exact ⟨[.background .clear], rfl⟩
      · exact ⟨[], rfl⟩
  | clear => exact ⟨[.background .clear], rfl⟩
  | elapse now => exact ⟨[.background (.jump now)], rfl⟩
  | observe name =>
      simp only [step, via, Office.withConnection]
      cases hfound : b.office.connector.connection? name with
      | none => exact ⟨[], rfl⟩
      | some c =>
          obtain ⟨metrics, hobserve⟩ := (b.office.connector.line c).observe_eq
          obtain ⟨errands, herrands⟩ := Office.leave_errands hfound
            (l := b.office.connector.line c) rfl rfl _ 0 metrics
          rw [← hobserve] at herrands
          exact ⟨errands, herrands.symm⟩
  | read name =>
      simp only [step, via]
      unfold Office.withConnection
      cases hfound : b.office.connector.connection? name with
      | none => exact ⟨[], rfl⟩
      | some c =>
          refine ⟨[.use name c.breaker
            ((b.office.connector.exchange.shared.box c.box).read c.updates).2], ?_⟩
          rw [Office.run_cons]
          simp only [Office.step, Office.withConnection, hfound]
          rfl
  | place name operation =>
      simp only [step]
      split
      · exact ⟨[], rfl⟩
      · exact ⟨[], rfl⟩
  | call i draw => exact b.use_errands i draw steady_goOn
  | hangUp i => exact b.use_errands i 0 steady_hangUp

section Keeps

variable {config : Config} {byAuthority : Bool} {P : Office → Prop}

/-- **What every errand keeps, everything keeps that happens at a bureau.** -/
theorem keeps_step
    (hkeeps : ∀ o e, o.Sound config byAuthority → P o → P (Office.step o e)) {b : Bureau}
    (hsound : b.office.Sound config byAuthority) (h : P b.office) (a : Affair) :
    (b.step a).office.Sound config byAuthority ∧ P (b.step a).office := by
  obtain ⟨errands, herrands⟩ := b.step_errands a
  rw [herrands]
  generalize b.office = o at hsound h ⊢
  clear herrands
  induction errands generalizing o with
  | nil => exact ⟨hsound, h⟩
  | cons e errands ih =>
      exact ih (o.step e) (Office.sound_errand hsound e) (hkeeps o e hsound h)

theorem keeps_run
    (hkeeps : ∀ o e, o.Sound config byAuthority → P o → P (Office.step o e)) {b : Bureau}
    (hsound : b.office.Sound config byAuthority) (h : P b.office) (affairs : List Affair) :
    (run affairs b).office.Sound config byAuthority ∧ P (run affairs b).office := by
  induction affairs generalizing b with
  | nil => exact ⟨hsound, h⟩
  | cons a affairs ih =>
      obtain ⟨hsound', h'⟩ := keeps_step hkeeps hsound h a
      exact ih hsound' h'

end Keeps

end Bureau

end Dialer
