import Dialer.Proofs.Connector.Sets

/-!
# Waiting for the sets of a connection

Any number of calls may wait for the next set of one connection. They share its receiver, which they
have one after the other, in the order in which they began. A call that has the receiver looks for
news whenever it goes on, and stays as long as there is none; once it has found some it does not wait
any more, but takes the set that is the current one when it gets to read it. A call that waits may
be given up.

A `Lobby` is a bureau with the calls that wait for one of its connections, from the moment at which
that was made. At each moment anything may happen at the bureau, so sets are published at any time,
also between the finding of news and the reading. No set is missed (`no_set_missed`): the calls
return sets that were the last ones at their time, in the order of publication and none twice, and
wait only while nothing has been published since the return before.
-/

namespace Dialer

open Resolver

/-! ## Waiting as the connector does it -/

namespace Connector

variable {c c' : Connector} {connection : Connection} {name : String} {limit : Duration}

/-- A wait ends with news, or at the limit without; the connector has gone on meanwhile, unless there
was news at once. -/
theorem attendFrom_waiter (connection : Connection) (c : Connector) (now limit : Nat) :
    ∃ x, (waiter connection).attendFrom c now limit =
      ({ c with exchange := x }, { c with exchange := x }.hasNews connection) ∧
      (c.hasNews connection = true → x = c.exchange) := by
  -- there are news at once, or when what is due is done, or the wait goes on, or the limit is there
  induction c, now using Foreground.attendFrom.induct (waiter connection) limit with
  | case1 c now goOn hover =>
      have hnews : c.hasNews connection = true := hover
      refine ⟨c.exchange, ?_, fun _ => rfl⟩
      rw [Foreground.attendFrom]
      exact (if_pos hover).trans (by rw [hnews]; rfl)
  | case2 c now goOn hwaits hlt settled hover =>
      have hnews : Connector.hasNews { c with exchange := c.exchange.settle } connection = true :=
        hover
      refine ⟨c.exchange.settle, ?_, fun hnow => absurd hnow hwaits⟩
      rw [Foreground.attendFrom, if_neg hwaits, dif_pos hlt]
      exact (if_pos hover).trans (by rw [hnews]; rfl)
  | case3 c now goOn hwaits hlt settled hwaits' later t ht hnext ih =>
      obtain ⟨x, hx, -⟩ := ih
      refine ⟨x, ?_, fun hnow => absurd hnow hwaits⟩
      rw [Foreground.attendFrom, if_neg hwaits, dif_pos hlt]
      refine (if_neg hwaits').trans ?_
      show (match Foreground.earliest now limit hlt ((waiter connection).instants later now limit) with
        | ⟨t, _⟩ => (waiter connection).attendFrom ((waiter connection).moveTo later t) t limit) = _
      rw [hnext]
      exact hx
  | case4 c now goOn hwaits hover =>
      have hnone : c.hasNews connection = false := eq_false_of_ne_true hwaits
      refine ⟨c.exchange, ?_, fun hnow => absurd hnow hwaits⟩
      rw [Foreground.attendFrom, if_neg hwaits, dif_neg hover, hnone]
      rfl

theorem awaitUpdate_of_found
    (h : (waiter connection).attend c (Clock.timer c.now limit) = (c', true)) :
    c.awaitUpdate name connection limit = (c'.update name { connection with
      updates := ((c'.exchange.shared.box connection.box).read connection.updates).2 },
      some (c'.addresses connection)) := by
  -- unfolded before it is applied, as the kernel would carry out the wait to compare two matches
  generalize hdef : @awaitUpdate = f
  delta awaitUpdate at hdef
  subst hdef
  beta_reduce
  rw [h]
  rfl

theorem awaitUpdate_of_late
    (h : (waiter connection).attend c (Clock.timer c.now limit) = (c', false)) :
    c.awaitUpdate name connection limit = (c', none) := by
  generalize hdef : @awaitUpdate = f
  delta awaitUpdate at hdef
  subst hdef
  beta_reduce
  rw [h]

/-- A wait gives the set that is the current one at its end if there is news by then, and otherwise
nothing. With news at its begin it ends at once. -/
theorem awaitUpdate_cases (c : Connector) (name : String) (connection : Connection)
    (limit : Duration) :
    ∃ c', c.awaitUpdate name connection limit = (c', if c'.hasNews connection
        then some (c'.addresses connection) else none) ∧
      (c.hasNews connection = true → c'.exchange = c.exchange) := by
  obtain ⟨x, hx, hnow⟩ := attendFrom_waiter connection c c.now (Clock.timer c.now limit)
  have hattend : (waiter connection).attend c (Clock.timer c.now limit) =
      ({ c with exchange := x }, { c with exchange := x }.hasNews connection) := hx
  cases hnews : Connector.hasNews { c with exchange := x } connection with
  | true =>
      rw [hnews] at hattend
      exact ⟨_, (awaitUpdate_of_found hattend).trans (congrArg (Prod.mk _) (if_pos hnews).symm), hnow⟩
  | false =>
      rw [hnews] at hattend
      exact ⟨{ c with exchange := x }, (awaitUpdate_of_late hattend).trans
        (congrArg (Prod.mk _) (if_neg (ne_true_of_eq_false hnews)).symm), hnow⟩

end Connector

/-- Who reads the sets of a connection marks them as seen, and does nothing else. -/
theorem Bureau.read_office {b : Bureau} {name : String} {c : Connection}
    (hfound : b.connector.connection? name = some c) :
    (b.step (.read name)).office = { b.office with connector := b.connector.update name { c with
      updates := ((b.connector.exchange.shared.box c.box).read c.updates).2 } } := by
  have hfound' : b.office.connector.connection? name = some c := hfound
  simp only [step, via, Office.withConnection, hfound']
  rfl

/-! ## The calls that wait for a connection -/

/-- Does someone read the sets of the connection with this name? -/
def Affair.reads (name : String) : Affair → Bool
  | .read other => other = name
  | _ => false

theorem Affair.ne_read_of_reads {a : Affair} {name : String} (h : ¬a.reads name) :
    a ≠ .read name := by
  rintro rfl
  exact h (decide_eq_true rfl)

/-- What a call that waited has returned. -/
structure Return where
  caller : Nat
  addresses : List Address
  /-- How many sets had been published by then. -/
  count : Nat

/-- A bureau with the calls that wait for the sets of one of its connections. -/
structure Lobby where
  bureau : Bureau
  name : String
  /-- The token of the connection, which tells it from others of the same name. -/
  token : Token
  /-- What was published while the connection was made. -/
  offered : List (List Address)
  /-- The calls that wait, in the order in which they began; the first has the receiver. -/
  queue : List Nat
  /-- How many calls have begun. -/
  begun : Nat
  /-- Has the first call found news? -/
  ready : Bool
  /-- The returns, the latest first. -/
  returns : List Return

namespace Lobby

/-- What may happen. -/
inductive Event where
  | affair (a : Affair)
  /-- A call begins, and goes on at once. -/
  | begins
  /-- A call goes on. -/
  | polls (caller : Nat)
  /-- The call that has found news takes the current set, and returns it. -/
  | takes
  /-- A call is given up. -/
  | leaves (caller : Nat)

/-- A new connection, for which nobody waits yet; nothing if it cannot be made. -/
def enter? (b : Bureau) (name raw : String) : Option Lobby :=
  match b.connector.connect name raw with
  | .ok connector =>
    (connector.connection? name).bind fun connection =>
      (b.connector.registry.get? connection.target.scheme).map fun builder =>
        { bureau := b.step (.order (.connect name raw))
          name
          token := connection.token
          offered := Office.offered connection.target builder
          queue := []
          begun := 0
          ready := false
          returns := [] }
  | .error _ => none

/-- The connection, as long as it is there. -/
def connection? (l : Lobby) : Option Connection :=
  (l.bureau.connector.connection? l.name).filter (·.token = l.token)

/-- The sets published since the making of the connection began, the latest first. -/
def sets (l : Lobby) (connection : Connection) : List (List Address) :=
  l.bureau.office.sets l.offered connection

/-- How many sets had been published by the last return; none if there was no return. -/
def counted (l : Lobby) : Nat :=
  match l.returns with
  | [] => 0
  | last :: _ => last.count

def outbox (l : Lobby) (connection : Connection) : Outbox :=
  l.bureau.connector.exchange.shared.box connection.box

/-- Has the connection a set that it has not seen? -/
def news (l : Lobby) : Bool :=
  l.connection?.any l.bureau.connector.hasNews

/-- A call goes on: if it has the receiver, it looks for news. -/
def poll (l : Lobby) (caller : Nat) : Lobby :=
  if l.queue.head? = some caller ∧ l.news then { l with ready := true } else l

/-- The first call takes the current set. -/
def take (l : Lobby) : Lobby :=
  match l.connection?, l.queue with
  | some connection, caller :: rest =>
    { l with
      bureau := l.bureau.step (.read l.name)
      queue := rest
      ready := false
      returns := ⟨caller, ((l.outbox connection).read connection.updates).1,
        (l.outbox connection).size⟩ :: l.returns }
  | _, _ => l

def step (l : Lobby) : Event → Lobby
  -- only the calls read the sets
  | .affair a => if a.reads l.name then l else { l with bureau := l.bureau.step a }
  | .begins =>
    if l.connection?.isSome then
      { l with queue := l.queue ++ [l.begun], begun := l.begun + 1 }.poll l.begun
    else l
  | .polls caller => l.poll caller
  | .takes => if l.ready then l.take else l
  -- a call that has found news does not wait any more
  | .leaves caller =>
    if l.ready ∧ l.queue.head? = some caller then l
    else { l with queue := l.queue.erase caller }

def run (events : List Event) (l : Lobby) : Lobby :=
  events.foldl step l

/-! ## What is kept -/

variable {config : Config} {byAuthority : Bool} {l : Lobby} {c : Connection}

theorem connection?_eq_some :
    l.connection? = some c ↔ l.bureau.connector.connection? l.name = some c ∧ c.token = l.token := by
  unfold connection?
  rw [Option.filter_eq_some_iff, decide_eq_true_eq]

/-- The outbox holds the sets, the connection has seen those up to the last return, and who does not
wait any more has found another. What was returned had been published, and later returns are of later
sets. -/
structure Kept (config : Config) (byAuthority : Bool) (l : Lobby) : Prop where
  sound : l.bureau.office.Sound config byAuthority
  held : l.bureau.office.Held l.name l.token l.offered
  seen : ∀ c, l.connection? = some c → c.updates = ⟨l.counted⟩
  news : l.ready = true → ∀ c, l.connection? = some c → l.counted < (l.sets c).length
  holder : l.ready = true → l.queue ≠ []
  returns : ∀ c, l.connection? = some c → ∀ r ∈ l.returns,
    0 < r.count ∧ (l.sets c).reverse[r.count - 1]? = some r.addresses
  order : l.returns.Pairwise fun later earlier => earlier.count < later.count

namespace Kept

theorem outbox_eq (h : l.Kept config byAuthority) (hc : l.connection? = some c) :
    (l.outbox c).published.map (·.addresses) = l.sets c :=
  h.held.published c (connection?_eq_some.mp hc).1 (connection?_eq_some.mp hc).2

theorem size_eq (h : l.Kept config byAuthority) (hc : l.connection? = some c) :
    (l.outbox c).size = (l.sets c).length := by
  rw [← h.outbox_eq hc, List.length_map]
  rfl

/-- The current set is the one published last. -/
theorem current_eq (h : l.Kept config byAuthority) (hc : l.connection? = some c) :
    (l.outbox c).current = (l.sets c).head?.getD [] := by
  rw [← h.outbox_eq hc, Outbox.current]
  cases (l.outbox c).published <;> rfl

/-- There is news just if a set was published since the last return. -/
theorem news_iff (h : l.Kept config byAuthority) (hc : l.connection? = some c) :
    l.news = true ↔ l.counted < (l.sets c).length := by
  have hsize : (l.bureau.connector.exchange.shared.box c.box).size = (l.sets c).length :=
    h.size_eq hc
  simp [Lobby.news, hc, Connector.hasNews, Outbox.hasNews, h.seen c hc, hsize]

theorem le_counted (h : l.Kept config byAuthority) {r : Return} (hr : r ∈ l.returns) :
    r.count ≤ l.counted := by
  have horder := h.order
  unfold counted
  cases hreturns : l.returns with
  | nil => simp [hreturns] at hr
  | cons last rest =>
      rw [hreturns] at hr horder
      rcases List.mem_cons.mp hr with rfl | hbefore
      · exact Nat.le_refl _
      · exact Nat.le_of_lt ((List.pairwise_cons.mp horder).1 r hbefore)

/-- With the queue and the news changed, the rest is kept. -/
theorem waits (h : l.Kept config byAuthority) {queue : List Nat} {begun : Nat} {ready : Bool}
    (hnews : ready = true → ∀ c, l.connection? = some c → l.counted < (l.sets c).length)
    (hholder : ready = true → queue ≠ []) :
    Kept config byAuthority { l with queue, begun, ready } :=
  { sound := h.sound, held := h.held, seen := h.seen, news := hnews, holder := hholder,
    returns := h.returns, order := h.order }

theorem poll (h : l.Kept config byAuthority) (caller : Nat) :
    (l.poll caller).Kept config byAuthority := by
  unfold Lobby.poll
  split
  · rename_i hfound
    refine h.waits (fun _ c hc => (h.news_iff hc).mp hfound.2) fun _ hnobody => ?_
    simp [hnobody] at hfound
  · exact h

/-- Whatever happens, what was published stays so, and only who reads has seen more. -/
theorem affair (h : l.Kept config byAuthority) {a : Affair} (hreads : ¬a.reads l.name) :
    Kept config byAuthority { l with bureau := l.bureau.step a } := by
  obtain ⟨hsound, hheld, hjournal⟩ := Bureau.held_step h.sound h.held a
  have hbefore : ∀ c', connection? { l with bureau := l.bureau.step a } = some c' →
      ∃ c, l.connection? = some c ∧ c'.updates = c.updates ∧
        ∃ new, sets { l with bureau := l.bureau.step a } c' = new ++ l.sets c := by
    intro c' hc'
    obtain ⟨hfound, htoken⟩ := connection?_eq_some.mp hc'
    obtain ⟨c, hc, hsame, hupdates⟩ := Bureau.updates_step h.sound h.held
      (Affair.ne_read_of_reads hreads) hfound htoken
    exact ⟨c, connection?_eq_some.mpr ⟨hc, hsame.token ▸ htoken⟩, hupdates,
      Office.sets_append hjournal hsame l.offered⟩
  constructor
  case sound => exact hsound
  case held => exact hheld
  case holder => exact h.holder
  case order => exact h.order
  case seen =>
    intro c' hc'
    obtain ⟨c, hc, hupdates, -⟩ := hbefore c' hc'
    exact hupdates.trans (h.seen c hc)
  case news =>
    intro hready c' hc'
    obtain ⟨c, hc, -, new, hnew⟩ := hbefore c' hc'
    have hlt := h.news hready c hc
    rw [hnew, List.length_append]
    exact Nat.lt_of_lt_of_le hlt (Nat.le_add_left _ _)
  case returns =>
    intro c' hc' r hr
    obtain ⟨c, hc, -, new, hnew⟩ := hbefore c' hc'
    obtain ⟨hpos, hset⟩ := h.returns c hc r hr
    obtain ⟨hlt, -⟩ := List.getElem?_eq_some_iff.mp hset
    refine ⟨hpos, ?_⟩
    rw [hnew, List.reverse_append, List.getElem?_append_left hlt]
    exact hset

/-- The current set is taken by the first call, if there is one. -/
theorem take_eq (h : l.Kept config byAuthority) (hc : l.connection? = some c) {caller : Nat}
    {rest : List Nat} (hqueue : l.queue = caller :: rest) :
    l.take = { l with
      bureau := l.bureau.step (.read l.name)
      queue := rest
      ready := false
      returns := ⟨caller, (l.sets c).head?.getD [], (l.sets c).length⟩ :: l.returns } := by
  have hread : ((l.outbox c).read c.updates).1 = (l.sets c).head?.getD [] := h.current_eq hc
  simp only [Lobby.take, hc, hqueue, hread, h.size_eq hc]

/-- With the set the connection has seen all sets, and none is published by that. -/
theorem take_sees (h : l.Kept config byAuthority) (hc : l.connection? = some c) {caller : Nat}
    {rest : List Nat} (hqueue : l.queue = caller :: rest) {c' : Connection}
    (hc' : l.take.connection? = some c') :
    c'.updates = ⟨(l.sets c).length⟩ ∧ l.take.sets c' = l.sets c := by
  have hfound := (connection?_eq_some.mp hc).1
  have hoffice := Bureau.read_office hfound
  rw [h.take_eq hc hqueue] at hc' ⊢
  have hchanged : (l.bureau.step (.read l.name)).office.connector.connection? l.name = some c' :=
    (connection?_eq_some.mp hc').1
  rw [hoffice, Connector.connection?_update, if_pos rfl, hfound] at hchanged
  obtain rfl := Option.some.inj hchanged
  refine ⟨congrArg Receiver.mk (h.size_eq hc), ?_⟩
  unfold sets
  rw [hoffice]
  rfl

theorem take (h : l.Kept config byAuthority) (hready : l.ready = true) :
    l.take.Kept config byAuthority := by
  cases hc : l.connection? with
  | none =>
      have hsame : l.take = l := by simp only [Lobby.take, hc]
      rw [hsame]
      exact h
  | some c =>
      cases hqueue : l.queue with
      | nil => exact absurd hqueue (h.holder hready)
      | cons caller rest =>
          have htake := h.take_eq hc hqueue
          have hnews := h.news hready c hc
          obtain ⟨hsound, hheld, -⟩ := Bureau.held_step h.sound h.held (.read l.name)
          constructor
          case sound => exact htake ▸ hsound
          case held => exact htake ▸ hheld
          case news => simp [htake]
          case holder => simp [htake]
          case order =>
            rw [htake]
            refine List.pairwise_cons.mpr ⟨fun r hr => ?_, h.order⟩
            exact Nat.lt_of_le_of_lt (h.le_counted hr) hnews
          case seen =>
            intro c' hc'
            rw [(h.take_sees hc hqueue hc').1, htake]
            rfl
          case returns =>
            intro c' hc' r hr
            rw [(h.take_sees hc hqueue hc').2]
            rw [htake] at hr
            rcases List.mem_cons.mp hr with rfl | hbefore
            · have hpos : 0 < (l.sets c).length := Nat.lt_of_le_of_lt (Nat.zero_le _) hnews
              refine ⟨hpos, ?_⟩
              obtain ⟨current, older, hsets⟩ := List.exists_cons_of_length_pos hpos
              simp [hsets]
            · exact h.returns c hc r hbefore

/-- **What is kept is kept by all that may happen.** -/
theorem step (h : l.Kept config byAuthority) (e : Event) : (l.step e).Kept config byAuthority := by
  cases e with
  | affair a =>
      simp only [Lobby.step]
      split
      · exact h
      · rename_i hreads
        exact h.affair hreads
  | begins =>
      simp only [Lobby.step]
      split
      · exact (h.waits h.news fun _ => by simp).poll l.begun
      · exact h
  | polls caller => exact h.poll caller
  | takes =>
      simp only [Lobby.step]
      split
      · rename_i hready
        exact h.take hready
      · exact h
  | leaves caller =>
      simp only [Lobby.step]
      split
      · exact h
      · rename_i hwaits
        refine h.waits h.news fun hready hnobody => ?_
        -- a call that has found news is the first one, and stays
        cases hqueue : l.queue with
        | nil => exact h.holder hready hqueue
        | cons first rest =>
            have hne : first ≠ caller := by
              rintro rfl
              exact hwaits ⟨hready, by rw [hqueue]; rfl⟩
            rw [hqueue, List.erase_cons_tail (by simpa using hne)] at hnobody
            exact List.cons_ne_nil _ _ hnobody

theorem run (h : l.Kept config byAuthority) (events : List Event) :
    (run events l).Kept config byAuthority := by
  induction events generalizing l with
  | nil => exact h
  | cons e events ih => exact ih (h.step e)

end Kept

/-- Whoever connects enters, and nobody waits yet. -/
theorem enter?_connect {b : Bureau} (hsound : b.office.Sound config byAuthority)
    (horderly : b.office.Orderly) {name raw : String} {connector : Connector}
    (hconnect : b.connector.connect name raw = .ok connector) :
    ∃ l, enter? b name raw = some l ∧ l.Kept config byAuthority := by
  obtain ⟨c, builder, hfound, hget, hupdates, hheld⟩ := Office.held_connect hsound horderly hconnect
  have hbuilder : b.connector.registry.get? c.target.scheme = some builder := hget
  have hoffice : (b.step (.order (.connect name raw))).office = { b.office with connector } := by
    have hconnect' : b.office.connector.connect name raw = .ok connector := hconnect
    show b.office.step (.connect name raw) = _
    simp only [Office.step, hconnect']
  refine ⟨{
    bureau := b.step (.order (.connect name raw))
    name
    token := c.token
    offered := Office.offered c.target builder
    queue := []
    begun := 0
    ready := false
    returns := [] }, by simp [enter?, hconnect, hfound, hbuilder], ?_⟩
  constructor
  case sound => exact Office.sound_errand hsound (.connect name raw)
  case held => exact hoffice ▸ hheld
  case seen =>
    intro c' hc'
    have hfound' : (b.step (.order (.connect name raw))).office.connector.connection? name =
        some c' := (connection?_eq_some.mp hc').1
    rw [hoffice, hfound] at hfound'
    obtain rfl := Option.some.inj hfound'
    exact hupdates
  case news => simp
  case holder => simp
  case returns => simp
  case order => exact .nil

/-! ## No set is missed -/

/-- How it goes with the calls that wait for the sets of a connection. -/
structure Attends (l : Lobby) (c : Connection) : Prop where
  /-- The addresses of the connection are the set published last. -/
  addresses : l.bureau.connector.addresses c = (l.sets c).head?.getD []
  /-- Each return is the one of some set, which was the last one when there were so many. -/
  returns : ∀ r ∈ l.returns, 0 < r.count ∧ (l.sets c).reverse[r.count - 1]? = some r.addresses
  /-- Between any two returns something was published. -/
  order : l.returns.Pairwise fun later earlier => earlier.count < later.count
  /-- A call that is alone finds news as it begins if something was published since the last return,
  and otherwise waits. -/
  begins : l.queue = [] → (l.step .begins).queue = [l.begun] ∧
    ((l.step .begins).ready = true ↔ l.counted < (l.sets c).length)
  /-- So it is when the first call goes on: once something has been published, it does not wait. -/
  polls : ∀ caller, l.queue.head? = some caller →
    ((l.step (.polls caller)).ready = true ↔ l.counted < (l.sets c).length)
  /-- The call that has found news returns the set published last. -/
  takes : l.ready = true → ∃ caller rest current older, l.queue = caller :: rest ∧
    l.sets c = current :: older ∧ (l.step .takes).queue = rest ∧
    (l.step .takes).returns = ⟨caller, current, (l.sets c).length⟩ :: l.returns
  /-- No call returns without news. -/
  waits : ∀ e, (l.ready = false ∨ e ≠ .takes) → (l.step e).returns = l.returns
  /-- A call while which the connector goes on until a limit returns the set that is the last one at
  its end, if something has been published since the last return by then, and otherwise nothing. It
  does not wait if something has been published before. -/
  awaits : ∀ limit, ∃ c', l.bureau.connector.awaitUpdate l.name c limit = (c',
      if l.counted < (c'.exchange.shared.box c.box).size then some (c'.addresses c) else none) ∧
    (l.counted < (l.sets c).length → c'.exchange = l.bureau.connector.exchange)

namespace Kept

/-- Who has the receiver and goes on stays just as long as nothing was published since the last
return. -/
theorem poll_ready (h : l.Kept config byAuthority) (hc : l.connection? = some c) {caller : Nat}
    (hfirst : l.queue.head? = some caller) :
    (l.poll caller).ready = true ↔ l.counted < (l.sets c).length := by
  rw [← h.news_iff hc]
  unfold Lobby.poll
  split
  · rename_i hfound
    simp [hfound.2]
  · rename_i hnone
    constructor
    · intro hready
      exact (h.news_iff hc).mpr (h.news hready c hc)
    · intro hnews
      exact absurd ⟨hfirst, hnews⟩ hnone

theorem poll_returns (l : Lobby) (caller : Nat) : (l.poll caller).returns = l.returns := by
  unfold Lobby.poll
  split <;> rfl

theorem attends (h : l.Kept config byAuthority) (hc : l.connection? = some c) : l.Attends c := by
  constructor
  case addresses => exact h.current_eq hc
  case returns => exact h.returns c hc
  case order => exact h.order
  case begins =>
    intro hqueue
    have hbegins : l.step .begins =
        Lobby.poll { l with queue := [l.begun], begun := l.begun + 1 } l.begun := by
      simp [Lobby.step, hc, hqueue]
    have hbegun : Kept config byAuthority { l with queue := [l.begun], begun := l.begun + 1 } :=
      h.waits h.news fun _ => List.cons_ne_nil _ _
    rw [hbegins]
    refine ⟨?_, hbegun.poll_ready hc rfl⟩
    unfold Lobby.poll
    split <;> rfl
  case polls => exact fun caller hfirst => h.poll_ready hc hfirst
  case takes =>
    intro hready
    obtain ⟨caller, rest, hqueue⟩ := List.exists_cons_of_ne_nil (h.holder hready)
    obtain ⟨current, older, hsets⟩ := List.exists_cons_of_length_pos
      (Nat.lt_of_le_of_lt (Nat.zero_le _) (h.news hready c hc))
    have htakes : l.step .takes = l.take := if_pos hready
    rw [htakes, h.take_eq hc hqueue]
    exact ⟨caller, rest, current, older, hqueue, hsets, rfl, by rw [hsets]; rfl⟩
  case waits =>
    intro e hearly
    cases e with
    | affair a =>
        simp only [Lobby.step]
        split <;> rfl
    | begins =>
        simp only [Lobby.step]
        split
        · exact poll_returns _ _
        · rfl
    | polls caller => exact poll_returns l caller
    | takes =>
        have hwaits : ¬l.ready = true := by simpa using hearly
        exact congrArg Lobby.returns (if_neg hwaits)
    | leaves caller =>
        simp only [Lobby.step]
        split <;> rfl
  case awaits =>
    intro limit
    obtain ⟨c', hawait, hnow⟩ := l.bureau.connector.awaitUpdate_cases l.name c limit
    refine ⟨c', hawait.trans ?_, fun hlt => hnow ?_⟩
    · simp only [Connector.hasNews, Outbox.hasNews, h.seen c hc, decide_eq_true_eq]
    · have hnews := (h.news_iff hc).mpr hlt
      simpa [Lobby.news, hc] using hnews

end Kept

/-- **No set is missed.** Whatever has happened at a connector, let a connection be made. Then calls
wait for its sets, in any number and in any order with all else that happens, so that some may have
begun before a set was published and some after it. At any time, as long as the connection is there,
its addresses are the set published last; each call that has returned has returned a set that was
published, the last one at its time; and it has waited just while no set had been published since the
return before it, or since the making of the connection began. -/
theorem no_set_missed (config : Config) (directory : Directory) (byAuthority : Bool)
    (draw : Nat → Float) (affairs : List Affair) {name raw : String} {connector : Connector}
    (hconnect : (Bureau.run affairs (.start config directory byAuthority draw)).connector.connect
      name raw = .ok connector) (events : List Event) :
    ∃ l, enter? (Bureau.run affairs (.start config directory byAuthority draw)) name raw = some l ∧
      ∀ c, (run events l).connection? = some c → (run events l).Attends c := by
  obtain ⟨hsound, horderly⟩ := Bureau.orderly_run config directory byAuthority draw affairs
  obtain ⟨l, henter, hkept⟩ := enter?_connect hsound horderly hconnect
  exact ⟨l, henter, fun _ hc => (hkept.run events).attends hc⟩

/-- Two calls wait for the sets of a host. For the second one the same set is published again, which
is one that it has not seen. -/
theorem no_set_missed_again :
    let answers (n : Nat) : List Event :=
      List.replicate n (.affair (.goOn 0 ⟨.zero, .ips ["1.1.1.1"]⟩))
    let events : List Event := [.begins, .begins] ++ answers 4 ++ [.polls 0, .takes, .polls 1,
      .affair (.elapse 40000000000), .affair (.order (.refresh "a"))] ++ answers 3
    ∃ l c, enter? (.start .standard ⟨[]⟩ false fun _ => 0.0) "a" "svc:80" = some l ∧
      (run events l).connection? = some c ∧ (run events l).ready = false ∧
      (run events l).sets c = [[⟨"1.1.1.1:80"⟩], [⟨"1.1.1.1:80"⟩]] ∧
      ((run events l).step (.polls 1)).ready = true := by
  intro answers events
  cases hconnect : (Bureau.run []
      (.start .standard ⟨[]⟩ false fun _ => 0.0)).connector.connect "a" "svc:80" with
  | error e =>
      have hmade : ((Bureau.run [] (.start .standard ⟨[]⟩ false fun _ => 0.0)).connector.connect
        "a" "svc:80").toBool = true := by decide +kernel
      rw [hconnect] at hmade
      cases hmade
  | ok connector =>
      obtain ⟨l, henter, hattends⟩ := no_set_missed .standard ⟨[]⟩ false (fun _ => 0.0) [] hconnect
        events
      have hrun : (enter? (.start .standard ⟨[]⟩ false fun _ => 0.0) "a" "svc:80").map
          (fun l => ((run events l).connection?.map (run events l).sets,
            (run events l).ready, (run events l).counted, (run events l).queue)) =
          some (some [[⟨"1.1.1.1:80"⟩], [⟨"1.1.1.1:80"⟩]], false, 1, [1]) := by
        decide +kernel
      have henter' : enter? (.start .standard ⟨[]⟩ false fun _ => 0.0) "a" "svc:80" = some l := henter
      rw [henter'] at hrun
      simp only [Option.map_some, Option.some.injEq, Prod.mk.injEq, Option.map_eq_some_iff] at hrun
      obtain ⟨⟨c, hc, hsets⟩, hready, hcounted, hqueue⟩ := hrun
      refine ⟨l, c, henter', hc, hready, hsets, ?_⟩
      exact ((hattends c hc).polls 1 (by rw [hqueue]; rfl)).mpr (by rw [hcounted, hsets]; decide)

/-- An address that is published while the connection is made is news for the first call. -/
example : (enter? (.start .standard ⟨[]⟩ false fun _ => 0.0) "a" "10.0.0.1:80").map (fun l =>
    (run [.begins, .takes] l).returns.map fun r => (r.addresses, r.count)) =
    some [([⟨"10.0.0.1:80"⟩], 1)] := by
  decide +kernel

end Lobby

end Dialer
