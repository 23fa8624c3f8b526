import Dialer.Proofs.Connector.Bureau

/-!
# What a connection has to itself

The connections of a connector share one exchange, but whatever is made for one of them is made for
it alone: the mark of its token, and with a resolver that watches the number, the outbox and the
mark of its watch. Marks and numbers are given out once. A new connection has nothing that was there
before it (`Opened`), so no other one ever has a part in what it has (`Office.Guarded`).

All tokens stand below that of the connector's shutdown: the tokens of connections and of the
janitor at once, those of watches below the token that the resolvers share.
-/

namespace Dialer

open Resolver Chronicle

/-- A token has none of these marks. -/
def Token.Spares (t : Token) (marks : List Nat) : Prop :=
  ∀ mark ∈ t.lineage, mark ∉ marks

/-- Two connections are the same but for their use. -/
structure Connection.Same (c c' : Connection) : Prop where
  target : c'.target = c.target
  resolver : c'.resolver = c.resolver
  box : c'.box = c.box
  policy : c'.policy = c.policy
  token : c'.token = c.token

namespace Connection.Same

variable {c c' c'' : Connection}

theorem refl (c : Connection) : c.Same c := ⟨rfl, rfl, rfl, rfl, rfl⟩

theorem trans (h : c.Same c') (h' : c'.Same c'') : c.Same c'' :=
  ⟨h'.target.trans h.target, h'.resolver.trans h.resolver, h'.box.trans h.box,
    h'.policy.trans h.policy, h'.token.trans h.token⟩

theorem symm (h : c.Same c') : c'.Same c :=
  ⟨h.target.symm, h.resolver.symm, h.box.symm, h.policy.symm, h.token.symm⟩

end Connection.Same

/-! ## What is given out -/

namespace Resolver.Chronicle

/-- A watch is new. -/
structure Begun (v v' : Chronicle) (n : Nat) (w : Watch) : Prop where
  number : v.exchange.watches.length ≤ n
  box : v.shared.outboxes.length ≤ w.box
  token : ∃ mark, w.token = ⟨[mark, 2, 0]⟩ ∧ v.shared.tokens.next ≤ mark ∧
    mark < v'.shared.tokens.next

/-- Nothing is given out twice, and nothing is taken back. -/
structure Grows (v v' : Chronicle) : Prop where
  marks : v.shared.tokens.next ≤ v'.shared.tokens.next
  cancelled : ∀ mark ∈ v.shared.tokens.cancelled, mark ∈ v'.shared.tokens.cancelled
  room : v.shared.outboxes.length ≤ v'.shared.outboxes.length
  count : v.exchange.watches.length ≤ v'.exchange.watches.length
  watches : ∀ n w', v'.watch? n = some w' →
    (∃ w, v.watch? n = some w ∧ w'.token = w.token ∧ w'.box = w.box ∧
      w'.assignment = w.assignment) ∨ Begun v v' n w'
  janitors : ∀ (n : Nat) (j' : Janitor), v'.exchange.janitors[n]? = some j' →
    ∃ j, v.exchange.janitors[n]? = some j ∧ j'.token = j.token ∧
      (j.running = false → j'.running = false)

variable {v v' v'' : Chronicle}

theorem Grows.refl (v : Chronicle) : Grows v v where
  marks := Nat.le_refl _
  cancelled _ h := h
  room := Nat.le_refl _
  count := Nat.le_refl _
  watches _ w h := .inl ⟨w, h, rfl, rfl, rfl⟩
  janitors _ j h := ⟨j, h, rfl, id⟩

theorem Grows.trans (h : Grows v v') (h' : Grows v' v'') : Grows v v'' where
  marks := Nat.le_trans h.marks h'.marks
  cancelled mark hmark := h'.cancelled mark (h.cancelled mark hmark)
  room := Nat.le_trans h.room h'.room
  count := Nat.le_trans h.count h'.count
  watches n w'' hw'' := by
    rcases h'.watches n w'' hw'' with ⟨w', hw', htoken', hbox', hassignment'⟩ | hbegun
    · rcases h.watches n w' hw' with ⟨w, hw, htoken, hbox, hassignment⟩ | ⟨hnumber, hbox, mark,
        hmark, hle, hlt⟩
      · exact .inl ⟨w, hw, htoken'.trans htoken, hbox'.trans hbox, hassignment'.trans hassignment⟩
      · exact .inr ⟨hnumber, hbox' ▸ hbox, mark, htoken'.trans hmark, hle,
          Nat.lt_of_lt_of_le hlt h'.marks⟩
    · obtain ⟨mark, hmark, hle, hlt⟩ := hbegun.token
      exact .inr ⟨Nat.le_trans h.count hbegun.number, Nat.le_trans h.room hbegun.box, mark, hmark,
        Nat.le_trans h.marks hle, hlt⟩
  janitors n j'' hj'' := by
    obtain ⟨j', hj', htoken', hover'⟩ := h'.janitors n j'' hj''
    obtain ⟨j, hj, htoken, hover⟩ := h.janitors n j' hj'
    exact ⟨j, hj, htoken'.trans htoken, hover' ∘ hover⟩

/-- A watch that was there is there. -/
theorem Grows.find (h : Grows v v') {n : Nat} {w : Watch} (hw : v.watch? n = some w) :
    ∃ w', v'.watch? n = some w' ∧ w'.token = w.token ∧ w'.box = w.box := by
  have hlt : n < v.exchange.watches.length := lt_of_watch? hw
  obtain ⟨w', hw'⟩ : ∃ w', v'.watch? n = some w' :=
    ⟨_, List.getElem?_eq_getElem (Nat.lt_of_lt_of_le hlt h.count)⟩
  rcases h.watches n w' hw' with ⟨before, hbefore, htoken, hbox, -⟩ | hbegun
  · obtain rfl := Option.some.inj (hw.symm.trans hbefore)
    exact ⟨w', hw', htoken, hbox⟩
  · exact absurd hbegun.number (Nat.not_le.mpr hlt)

end Resolver.Chronicle

namespace Office

open Chronicle

variable {config : Config} {byAuthority : Bool} {o : Office} {v v' : Chronicle}

theorem grows_watch (v : Chronicle) (target : Target) :
    Grows v (v.step (.watch (Connector.options config byAuthority) target)) := by
  rw [step_watch]
  constructor
  case marks => exact Nat.le_succ _
  case cancelled => exact fun _ h => h
  case room => exact (List.prefix_append v.shared.outboxes _).length_le
  case count => exact (List.prefix_append v.exchange.watches _).length_le
  case watches =>
    intro n w hw
    rcases mem_append hw with hold | ⟨rfl, rfl⟩
    · exact .inl ⟨w, hold, rfl, rfl, rfl⟩
    · exact .inr ⟨Nat.le_refl _, Nat.le_refl _, _, rfl, Nat.le_refl _, Nat.lt_succ_self _⟩
  case janitors => exact fun _ j hj => ⟨j, hj, rfl, id⟩

theorem sweep_keeps (x : Exchange) (n : Nat) : ∀ (m : Nat) (j' : Janitor),
    (x.run (.janitor n)).janitors[m]? = some j' → ∃ j, x.janitors[m]? = some j ∧
      j'.token = j.token ∧ (j.running = false → j'.running = false) := by
  intro m j' hj'
  rcases run_janitor x n with ⟨-, hsame⟩ | ⟨j, hj, hrun⟩
  · rw [hsame] at hj'
    exact ⟨j', hj', rfl, id⟩
  · rw [hrun] at hj'
    rcases mem_set hj' with ⟨rfl, rfl⟩ | ⟨-, hold⟩
    · refine ⟨j, hj, ?_⟩
      rcases janitor_run j x.shared with ⟨-, hsame⟩ | ⟨-, -, -, hsame⟩ | ⟨-, -, hsame⟩
      · rw [hsame]
        exact ⟨rfl, fun _ => rfl⟩
      · rw [hsame]
        exact ⟨rfl, id⟩
      · rw [hsame]
        exact ⟨rfl, id⟩
    · exact ⟨j', hold, rfl, id⟩

/-- What errands come to: no janitor is made. -/
def Ordinary (config : Config) (byAuthority : Bool) (occurrence : Occurrence) : Prop :=
  Serves config byAuthority true occurrence ∧ ∀ every token, occurrence ≠ .janitor every token

theorem ordinary_of_deals {occurrence : Occurrence}
    (h : Deals config byAuthority true occurrence) : Ordinary config byAuthority occurrence := by
  refine ⟨h.1, ?_⟩
  rintro every token rfl
  cases h.2

theorem errand_ordinary (h : o.Sound config byAuthority) (e : Errand) :
    Reaches (Ordinary config byAuthority) o.chronicle (o.step e).chronicle := by
  cases e with
  | background occurrence =>
      simp only [step]
      split
      · rename_i hbackground
        refine .step (o := occurrence) ⟨?_, ?_⟩ rfl
        · cases occurrence with
          | go => trivial
          | sweep => trivial
          | clear => trivial
          | pass => trivial
          | jump => rfl
          | retire => trivial
          | elsewhere => trivial
          | _ => cases hbackground
        · rintro every token rfl
          cases hbackground
      · exact .refl _ _
  | _ =>
      exact (deal_reaches true h (fun _ => Errand.noConfusion) fun _ => rfl).2.mono
        fun _ => ordinary_of_deals

/-- Whatever happens to the exchange of a connector, it grows. -/
theorem grows_step (hsound : v.Sound) {occurrence : Occurrence}
    (hordinary : Ordinary config byAuthority occurrence) : Grows v (v.step occurrence) := by
  have htakes := v.step_takes occurrence hsound.within
  generalize hstep : v.step occurrence = v' at htakes ⊢
  cases htakes with
  | acts n w deeds l shared ho hwatch hfree hacts htold =>
      obtain ⟨-, hassignment, htoken, hbox⟩ := hacts.keeps
      obtain ⟨-, hassignment', htoken', hbox'⟩ := standing_keeps w (v.points n)
      constructor
      case marks => exact Nat.le_of_eq (congrArg Cancellations.next htold.tokens).symm
      case cancelled =>
        rw [shared_carry, htold.tokens]
        exact fun _ h => h
      case room => exact Nat.le_of_eq (by rw [shared_carry, htold.outboxes, List.length_modify])
      case count => exact Nat.le_of_eq (List.length_set ..).symm
      case watches =>
        intro m w' hm
        rcases mem_set hm with ⟨rfl, rfl⟩ | ⟨-, hsame⟩
        · exact .inl ⟨w, hwatch, htoken.trans htoken', hbox.trans hbox',
            hassignment.trans hassignment'⟩
        · exact .inl ⟨w', hsame, rfl, rfl, rfl⟩
      case janitors => exact fun _ j hj => ⟨j, hj, rfl, id⟩
  | alters n w phase wanted agenda hwatch hwithin hlooking hstopped hagenda =>
      constructor
      case marks => exact Nat.le_refl _
      case cancelled => exact fun _ h => h
      case room => exact Nat.le_refl _
      case count => exact Nat.le_of_eq (List.length_set ..).symm
      case watches =>
        intro m w' hm
        rcases mem_set hm with ⟨rfl, rfl⟩ | ⟨-, hsame⟩
        · exact .inl ⟨w, hwatch, rfl, rfl, rfl⟩
        · exact .inl ⟨w', hsame, rfl, rfl, rfl⟩
      case janitors => exact fun _ j hj => ⟨j, hj, rfl, id⟩
  | begins options target w agenda ho =>
      subst ho
      obtain ⟨rfl, -⟩ := hordinary.1
      rw [← hstep]
      exact grows_watch v target
  | aside _ haside =>
      refine ⟨haside.marks, haside.cancelled, haside.room, ?_, ?_, ?_⟩
      · exact Nat.le_of_eq (by rw [haside.watches])
      · intro n w hw
        rw [watch?, haside.watches] at hw
        exact .inl ⟨w, hw, rfl, rfl, rfl⟩
      · rcases haside.clock with htiming | ⟨-, hsame⟩
        · subst hstep
          cases occurrence with
          | sweep n => exact sweep_keeps v.exchange n
          | janitor every token => exact absurd rfl (hordinary.2 every token)
          | pass now =>
              simp only [Chronicle.step]
              split <;> exact fun _ j hj => ⟨j, hj, rfl, id⟩
          | jump now =>
              simp only [Chronicle.step]
              split <;> exact fun _ j hj => ⟨j, hj, rfl, id⟩
          | _ => cases htiming
        · rw [hsame]
          exact fun _ j hj => ⟨j, hj, rfl, id⟩

theorem grows_reaches (hsound : v.Sound)
    (hreaches : Reaches (Ordinary config byAuthority) v v') : Grows v v' := by
  obtain ⟨occurrences, hordinary, rfl⟩ := hreaches
  exact run_keeps (P := Grows v) (Ordinary config byAuthority)
    (fun _ _ hsound' ho hgrows => hgrows.trans (grows_step hsound' ho)) hsound hordinary (.refl v)

theorem grows_errand (h : o.Sound config byAuthority) (e : Errand) :
    Grows o.chronicle (o.step e).chronicle :=
  grows_reaches h.chronicle (errand_ordinary h e)

/-! ## New connections -/

/-- A connection is new: it has nothing that was there before, and no other watch is new. -/
structure Opened (v v' : Chronicle) (c : Connection) : Prop where
  token : ∃ mark, c.token = ⟨[mark, 0]⟩ ∧ v.shared.tokens.next ≤ mark ∧
    mark < v'.shared.tokens.next
  room : v.shared.outboxes.length ≤ c.box
  box : c.box < v'.shared.outboxes.length
  resolver : ∀ n, c.resolver = some n →
    v.exchange.watches.length ≤ n ∧ n < v'.exchange.watches.length
  alone : ∀ n w, v'.watch? n = some w → v.exchange.watches.length ≤ n →
    c.resolver = some n ∧ w.assignment.key = c.target.endpoint

theorem close_keeps (x : Exchange) (r : Handle) :
    (x.close r).watches = x.watches ∧ (x.close r).shared.outboxes = x.shared.outboxes ∧
      (x.close r).shared.tokens.next = x.shared.tokens.next := by
  unfold Exchange.close
  split
  · obtain ⟨agenda, hcancel, -⟩ := cancel_eq x _
    rw [hcancel]
    exact ⟨rfl, rfl, rfl⟩
  · exact ⟨rfl, rfl, rfl⟩

/-- A resolver gets an outbox with what is published at once. It is a watch, for which nothing is,
or nothing that goes on. -/
theorem build_opens {x x' : Exchange} {b : Builder} {t : Target} {resolver : Handle}
    (hbuild : { x with shared := x.shared.openBox.2 }.build b t x.shared.openBox.1 =
      .ok (resolver, x')) :
    (∃ box : Outbox, x'.shared.outboxes = x.shared.outboxes ++ [box] ∧
      box.published.map (·.addresses) = offered t b) ∧
      (resolver = none ∧ x'.watches = x.watches ∨ resolver = some x.watches.length ∧
        offered t b = [] ∧ ∃ w, x'.watches = x.watches ++ [w] ∧ w.assignment.key = t.endpoint) := by
  obtain ⟨rfl, metrics, addresses, hoffered, rfl⟩ | ⟨options, -, hoffered, hmade⟩ :=
    build_cases hbuild
  · rw [hoffered]
    refine ⟨⟨⟨[⟨x.shared.now, addresses⟩]⟩, ?_, rfl⟩, .inl ⟨rfl, rfl⟩⟩
    simp [Exchange.apply, Shared.publish, Shared.openBox, List.modify_eq_set_getElem?,
      Outbox.publish, Outbox.empty]
  · rw [watchTarget_eq] at hmade
    obtain ⟨rfl, rfl⟩ := Prod.mk.inj hmade
    rw [hoffered]
    exact ⟨⟨.empty, rfl, rfl⟩, .inr ⟨rfl, rfl, _, rfl, rfl⟩⟩

/-- The connection that gets a resolver, with a token from the exchange that made it. -/
def fresh (c : Connector) (raw : String) (t : Target) (policy : RetryPolicy) (resolver : Handle)
    (x : Exchange) : Connection where
  target := t
  resolver
  box := c.exchange.shared.outboxes.length
  updates := (c.exchange.shared.openBox.2.box c.exchange.shared.outboxes.length).subscribe
  breaker := .make (.ofConfig raw c.config.breaker) c.now
  policy
  token := (x.childToken c.shutdown.origin).1

theorem establish_eq (c : Connector) (raw : String) (t : Target) (b : Builder)
    (policy : RetryPolicy) : c.establish raw t b policy =
      Except.map (fun made : Handle × Exchange => (fresh c raw t policy made.1 made.2,
          { c with exchange := (made.2.childToken c.shutdown.origin).2 }))
        ({ c.exchange with shared := c.exchange.shared.openBox.2 }.build b t
          c.exchange.shared.outboxes.length) := by
  show (Exchange.build { c.exchange with shared := c.exchange.shared.openBox.2 } b t
    c.exchange.shared.outboxes.length >>= _) = _
  cases Exchange.build { c.exchange with shared := c.exchange.shared.openBox.2 } b t
    c.exchange.shared.outboxes.length <;> rfl

theorem establish_cases {c made : Connector} {raw : String} {t : Target} {b : Builder}
    {policy : RetryPolicy} {connection : Connection}
    (h : c.establish raw t b policy = .ok (connection, made)) : ∃ resolver x,
      { c.exchange with shared := c.exchange.shared.openBox.2 }.build b t
        c.exchange.shared.outboxes.length = .ok (resolver, x) ∧
      connection = fresh c raw t policy resolver x ∧
      made = { c with exchange := (x.childToken c.shutdown.origin).2 } := by
  rw [establish_eq] at h
  cases hbuild : Exchange.build { c.exchange with shared := c.exchange.shared.openBox.2 } b t
      c.exchange.shared.outboxes.length with
  | error e =>
      rw [hbuild] at h
      cases h
  | ok built =>
      rw [hbuild] at h
      obtain ⟨hconnection, hmade⟩ := Prod.mk.inj (Except.ok.inj h)
      exact ⟨built.1, built.2, rfl, hconnection.symm, hmade.symm⟩

theorem drop_keeps (c : Connector) (name : String) :
    (c.drop name).exchange.watches = c.exchange.watches ∧
      (c.drop name).exchange.shared.outboxes = c.exchange.shared.outboxes ∧
      (c.drop name).exchange.shared.tokens.next = c.exchange.shared.tokens.next := by
  unfold Connector.drop
  split
  · exact close_keeps _ _
  · exact ⟨rfl, rfl, rfl⟩

/-- What was made for a connection was not there before. -/
theorem opened_fresh (h : o.Sound config byAuthority) {raw : String} {t : Target} {b : Builder}
    {policy : RetryPolicy} {resolver : Handle} {x : Exchange} {v' : Chronicle}
    (hbuild : { o.connector.exchange with shared := o.shared.openBox.2 }.build b t
      o.shared.openBox.1 = .ok (resolver, x))
    (hmarks : o.shared.tokens.next ≤ x.shared.tokens.next)
    (hwatches : v'.exchange.watches = x.watches)
    (houtboxes : v'.shared.outboxes = x.shared.outboxes)
    (hnext : v'.shared.tokens.next = x.shared.tokens.next + 1) :
    Opened o.chronicle v' (fresh o.connector raw t policy resolver x) := by
  obtain ⟨⟨box, hboxes, -⟩, hmade⟩ := build_opens hbuild
  constructor
  case token =>
    refine ⟨x.shared.tokens.next, ?_, hmarks, ?_⟩
    · show Token.mk (_ :: o.connector.shutdown.origin.lineage) = _
      rw [h.origin]
    · rw [hnext]
      exact Nat.lt_succ_self _
  case room => exact Nat.le_refl _
  case box =>
    rw [houtboxes, hboxes, List.length_append]
    exact Nat.lt_succ_self _
  case resolver =>
    intro n hn
    rw [hwatches]
    rcases hmade with ⟨rfl, -⟩ | ⟨rfl, -, w, hnew, -⟩
    · cases hn
    · obtain rfl := Option.some.inj hn
      rw [hnew, List.length_append, List.length_singleton]
      exact ⟨Nat.le_refl _, Nat.lt_succ_self _⟩
  case alone =>
    intro n w hw hn
    rw [watch?, hwatches] at hw
    rcases hmade with ⟨-, hold⟩ | ⟨rfl, -, u, hnew, hkey⟩
    · rw [hold] at hw
      exact absurd (List.getElem?_eq_some_iff.mp hw).1 (Nat.not_lt.mpr hn)
    · rw [hnew] at hw
      rcases mem_append hw with hold | ⟨rfl, rfl⟩
      · exact absurd (List.getElem?_eq_some_iff.mp hold).1 (Nat.not_lt.mpr hn)
      · exact ⟨rfl, hkey⟩

/-- Connecting is to build a resolver, for which a connection is made, and to drop the connection
that had the name. -/
theorem connect_makes {c c' : Connector} {name raw : String} (h : c.connect name raw = .ok c') :
    ∃ t b policy resolver x, Target.parse raw c.config.resolver.ports = .ok t ∧
      c.registry.get? t.scheme = some b ∧
      { c.exchange with shared := c.exchange.shared.openBox.2 }.build b t
        c.exchange.shared.openBox.1 = .ok (resolver, x) ∧
      c'.exchange.watches = x.watches ∧ c'.exchange.shared.outboxes = x.shared.outboxes ∧
      c'.exchange.shared.tokens.next = x.shared.tokens.next + 1 ∧
      ∀ other, c'.connection? other =
        if other = name then some (fresh c raw t policy resolver x) else c.connection? other := by
  obtain ⟨t, b, policy, connection, made, hparse, hget, hestablish, rfl⟩ := connect_cases h
  obtain ⟨resolver, x, hbuild, rfl, rfl⟩ := establish_cases hestablish
  obtain ⟨hwatches, houtboxes, hnext⟩ := drop_keeps
    { c with exchange := (x.childToken c.shutdown.origin).2 } name
  refine ⟨t, b, policy, resolver, x, hparse, hget, hbuild, hwatches, houtboxes, hnext,
    fun other => ?_⟩
  have hdropped := Connector.connection?_drop
    { c with exchange := (x.childToken c.shutdown.origin).2 } name
  have hnone := hdropped name
  rw [if_pos rfl] at hnone
  rw [Connector.connection?_append hnone, hdropped]
  split <;> rfl

/-- A target that is connected to under a name gets a new connection, and the other connections
stay as they are. -/
theorem connect_opens (h : o.Sound config byAuthority) {name raw : String} {c' : Connector}
    (hconnect : o.connector.connect name raw = .ok c') :
    ∃ c, Opened o.chronicle { o.chronicle with exchange := c'.exchange } c ∧
      ∀ other, c'.connection? other =
        if other = name then some c else o.connector.connection? other := by
  obtain ⟨t, b, policy, resolver, x, hparse, hget, hbuild, hwatches, houtboxes, hnext, hall⟩ :=
    connect_makes hconnect
  have hbuilder := h.builder hget
  rw [h.configured] at hparse
  have hbuilt := (build_reaches true (v := o.chronicle) h.chronicle hbuilder ⟨raw, hparse⟩ hbuild).1
  have hgrows := grows_reaches h.chronicle (hbuilt.mono fun _ => ordinary_of_deals)
  exact ⟨fresh o.connector raw t policy resolver x,
    opened_fresh h hbuild hgrows.marks hwatches houtboxes hnext, hall⟩

/-- Where no calls leave a connection, every connection was there before, or a single one is
made. -/
theorem connections_order (h : o.Sound config byAuthority) {e : Errand}
    (huse : ∀ name breaker updates, e ≠ .use name breaker updates) :
    (∀ name c, (o.step e).connector.connection? name = some c →
      o.connector.connection? name = some c) ∨
    ∃ name c, Opened o.chronicle (o.step e).chronicle c ∧
      ∀ other, (o.step e).connector.connection? other =
        if other = name then some c else o.connector.connection? other := by
  have hsame {o' : Office} (hkept : o'.connector.connections = o.connector.connections) :
      ∀ name c, o'.connector.connection? name = some c →
        o.connector.connection? name = some c := by
    intro name c hfound
    rwa [Connector.connection?, hkept] at hfound
  have hdone {name : String} {f : Connector → Connection → Connector}
      (hkept : ∀ c, (f o.connector c).connections = o.connector.connections) :
      (o.withConnection name f).connector.connections = o.connector.connections := by
    unfold withConnection
    split
    · exact hkept _
    · rfl
  cases e with
  | connect name raw =>
      cases hconnect : o.connector.connect name raw with
      | error error =>
          refine .inl (hsame ?_)
          simp only [step, hconnect]
      | ok c' =>
          obtain ⟨c, hopened, hall⟩ := connect_opens h hconnect
          refine .inr ⟨name, c, ?_⟩
          simp only [step, hconnect]
          exact ⟨hopened, hall⟩
  | drop name =>
      refine .inl fun other c hfound => ?_
      simp only [step, Connector.connection?_drop] at hfound
      split at hfound
      · cases hfound
      · exact hfound
  | close name => exact .inl (hsame (hdone fun _ => rfl))
  | refresh name => exact .inl (hsame (hdone fun _ => rfl))
  | stop => exact .inl (hsame rfl)
  | register => exact .inl (hsame rfl)
  | use name breaker updates => exact absurd rfl (huse name breaker updates)
  | background occurrence =>
      refine .inl (hsame ?_)
      simp only [step]
      split <;> rfl

/-- What an errand does with the connections: it makes none, or a single one. -/
theorem connections_errand (h : o.Sound config byAuthority) (e : Errand) :
    (∀ name c', (o.step e).connector.connection? name = some c' →
      ∃ c, o.connector.connection? name = some c ∧ c.Same c') ∨
    ∃ name c, Opened o.chronicle (o.step e).chronicle c ∧
      ∀ other, (o.step e).connector.connection? other =
        if other = name then some c else o.connector.connection? other := by
  cases e with
  | use name breaker updates =>
      refine .inl fun other c' hfound => ?_
      simp only [step, withConnection] at hfound
      cases hbefore : o.connector.connection? name with
      | none =>
          rw [hbefore] at hfound
          exact ⟨c', hfound, .refl c'⟩
      | some c =>
          rw [hbefore] at hfound
          simp only [Connector.connection?_update] at hfound
          split at hfound
          · rename_i hother
            rw [hbefore] at hfound
            obtain rfl := Option.some.inj hfound
            exact ⟨c, hother ▸ hbefore, rfl, rfl, rfl, rfl, rfl⟩
          · exact ⟨c', hfound, .refl c'⟩
  | _ =>
      exact (connections_order h fun _ _ _ => Errand.noConfusion).imp_left
        fun hold name c' hfound => ⟨c', hold name c' hfound, .refl c'⟩

/-! ## What nobody else has a part in -/

/-- Nobody else has a part in what a connection has: the marks, which are those of its token and of
its watch, and the watch. -/
structure Guarded (c : Connection) (marks : List Nat) (o : Office) : Prop where
  given : ∀ mark ∈ marks, 3 ≤ mark ∧ mark < o.shared.tokens.next
  token : ∃ mark ∈ c.token.lineage.head?, mark ∈ marks
  watch : ∀ n, c.resolver = some n → n < o.connector.exchange.watches.length
  watches : ∀ n w, o.chronicle.watch? n = some w →
    c.resolver = some n ∧ (∃ mark ∈ w.token.lineage.head?, mark ∈ marks) ∧
        w.assignment.key = c.target.endpoint ∨
      c.resolver ≠ some n ∧ w.token.Spares marks
  connections : ∀ name c', o.connector.connection? name = some c' →
    c.Same c' ∨ c'.token.Spares marks ∧ ∀ n, c'.resolver = some n → c.resolver ≠ some n

/-- All tokens stand below that of the shutdown, outboxes belong to one connection each, and nobody
has a part in what another connection has. -/
structure Orderly (o : Office) : Prop where
  watches : ∀ n w, o.chronicle.watch? n = some w →
    ∃ mark, w.token = ⟨[mark, 2, 0]⟩ ∧ 3 ≤ mark ∧ mark < o.shared.tokens.next
  connections : ∀ name c, o.connector.connection? name = some c →
    (∃ mark, c.token = ⟨[mark, 0]⟩ ∧ 3 ≤ mark ∧ mark < o.shared.tokens.next) ∧
      c.box < o.shared.outboxes.length ∧
      ∀ n w, o.chronicle.watch? n = some w → w.box = c.box → c.resolver = some n
  janitors : ∀ j ∈ o.connector.exchange.janitors, j.token = ⟨[1, 0]⟩
  guarded : ∀ name c, o.connector.connection? name = some c → ∃ marks, Guarded c marks o

/-- Marks that are given out later than others are different from them. -/
theorem spares_of_ne {mark : Nat} {rest marks : List Nat} (hmark : mark ∉ marks)
    (hmarks : ∀ mark ∈ marks, 3 ≤ mark) (hrest : ∀ mark ∈ rest, mark < 3) :
    Token.Spares ⟨mark :: rest⟩ marks := by
  intro other hother hmem
  rcases List.mem_cons.mp hother with rfl | hbelow
  · exact hmark hmem
  · exact absurd (hmarks other hmem) (Nat.not_le.mpr (hrest other hbelow))

variable {c c' : Connection} {marks : List Nat}

theorem Guarded.spares_later (h : Guarded c marks o) {mark : Nat} {rest : List Nat}
    (hlater : o.shared.tokens.next ≤ mark) (hrest : ∀ mark ∈ rest, mark < 3) :
    Token.Spares ⟨mark :: rest⟩ marks :=
  spares_of_ne (fun hmem => absurd (h.given mark hmem).2 (Nat.not_lt.mpr hlater))
    (fun mark hmem => (h.given mark hmem).1) hrest

theorem Guarded.same (h : Guarded c marks o) (hsame : c.Same c') : Guarded c' marks o where
  given := h.given
  token := hsame.token ▸ h.token
  watch n hn := h.watch n (hsame.resolver ▸ hn)
  watches n w hw := by
    rw [hsame.resolver, hsame.target]
    exact h.watches n w hw
  connections name c'' hc'' := by
    rw [hsame.resolver]
    exact (h.connections name c'' hc'').imp_left hsame.symm.trans

/-- **What a connection has stays its own,** whatever is done. -/
theorem guarded_errand (h : o.Sound config byAuthority) (hguarded : Guarded c marks o)
    (e : Errand) : Guarded c marks (o.step e) := by
  have hgrows := grows_errand h e
  constructor
  case given =>
    exact fun mark hmark => ⟨(hguarded.given mark hmark).1,
      Nat.lt_of_lt_of_le (hguarded.given mark hmark).2 hgrows.marks⟩
  case token => exact hguarded.token
  case watch => exact fun n hn => Nat.lt_of_lt_of_le (hguarded.watch n hn) hgrows.count
  case watches =>
    intro n w' hw'
    rcases hgrows.watches n w' hw' with ⟨w, hw, htoken, -, hassignment⟩ | ⟨hnumber, -, mark,
      htoken, hlater, -⟩
    · rw [htoken, hassignment]
      exact hguarded.watches n w hw
    · refine .inr ⟨fun hn => absurd (hguarded.watch n hn) (Nat.not_lt.mpr hnumber), ?_⟩
      rw [htoken]
      exact hguarded.spares_later hlater (by simp)
  case connections =>
    intro name c' hc'
    rcases connections_errand h e with hold | ⟨opened, c'', hopened, hall⟩
    · obtain ⟨before, hbefore, hsame⟩ := hold name c' hc'
      rw [hsame.token, hsame.resolver]
      exact (hguarded.connections name before hbefore).imp_left (·.trans hsame)
    · rw [hall] at hc'
      split at hc'
      · obtain rfl := Option.some.inj hc'
        obtain ⟨mark, htoken, hlater, -⟩ := hopened.token
        refine .inr ⟨?_, fun n hn hown => ?_⟩
        · rw [htoken]
          exact hguarded.spares_later hlater (by simp)
        · exact absurd (hguarded.watch n hown) (Nat.not_lt.mpr (hopened.resolver n hn).1)
      · exact hguarded.connections name c' hc'

/-- A new connection has the mark of its token, and if it has a watch the mark of that. All of them
are new. -/
theorem marks_opened (hgrows : Grows v v') (hopened : Opened v v' c) :
    ∃ marks : List Nat, (∃ mark ∈ c.token.lineage.head?, mark ∈ marks) ∧
      (∀ mark ∈ marks, v.shared.tokens.next ≤ mark ∧ mark < v'.shared.tokens.next) ∧
      ∀ n w, v'.watch? n = some w → c.resolver = some n →
        ∃ mark ∈ w.token.lineage.head?, mark ∈ marks := by
  obtain ⟨mark, htoken, hlater, hgiven⟩ := hopened.token
  rw [htoken]
  have hbegun {n : Nat} {w : Watch} (hw : v'.watch? n = some w) (hn : c.resolver = some n) :
      Begun v v' n w := by
    rcases hgrows.watches n w hw with ⟨before, hbefore, -⟩ | hbegun
    · exact absurd (lt_of_watch? hbefore) (Nat.not_lt.mpr (hopened.resolver n hn).1)
    · exact hbegun
  -- a connection to an address has no watch, and one mark is all it has
  by_cases hsome : ∃ n w, v'.watch? n = some w ∧ c.resolver = some n
  · obtain ⟨n, w, hw, hn⟩ := hsome
    obtain ⟨own, hown, hlater', hgiven'⟩ := (hbegun hw hn).token
    refine ⟨[mark, own], ⟨mark, rfl, List.mem_cons_self⟩, ?_, ?_⟩
    · intro other hother
      rcases List.mem_cons.mp hother with rfl | hother
      · exact ⟨hlater, hgiven⟩
      · rw [List.mem_singleton.mp hother]
        exact ⟨hlater', hgiven'⟩
    · intro m w' hw' hm
      obtain rfl := Option.some.inj (hn.symm.trans hm)
      obtain rfl := Option.some.inj (hw.symm.trans hw')
      rw [hown]
      exact ⟨own, rfl, List.mem_cons_of_mem _ List.mem_cons_self⟩
  · refine ⟨[mark], ⟨mark, rfl, List.mem_cons_self⟩, ?_,
      fun n w hw hn => absurd ⟨n, w, hw, hn⟩ hsome⟩
    intro other hother
    rw [List.mem_singleton.mp hother]
    exact ⟨hlater, hgiven⟩

/-- A new connection is guarded from the start. -/
theorem guarded_opened (h : o.Sound config byAuthority) (horderly : o.Orderly) {o' : Office}
    (hgrows : Grows o.chronicle o'.chronicle) {name : String}
    (hopened : Opened o.chronicle o'.chronicle c)
    (hall : ∀ other, o'.connector.connection? other =
      if other = name then some c else o.connector.connection? other) :
    ∃ marks, Guarded c marks o' := by
  obtain ⟨marks, htoken, hmarks, hwatch⟩ := marks_opened hgrows hopened
  have hspares {early : Nat} {rest : List Nat} (hearly : early < o.shared.tokens.next)
      (hrest : ∀ mark ∈ rest, mark < 3) : Token.Spares ⟨early :: rest⟩ marks :=
    spares_of_ne (fun hmem => absurd (hmarks early hmem).1 (Nat.not_le.mpr hearly))
      (fun mark hmem => Nat.le_trans h.marks (hmarks mark hmem).1) hrest
  refine ⟨marks, ?_, htoken, fun n hn => (hopened.resolver n hn).2, ?_, ?_⟩
  · exact fun mark hmem => ⟨Nat.le_trans h.marks (hmarks mark hmem).1, (hmarks mark hmem).2⟩
  · intro n w hw
    rcases hgrows.watches n w hw with ⟨before, hbefore, hsame, -⟩ | hbegun
    · have hlt : n < o.connector.exchange.watches.length := lt_of_watch? hbefore
      refine .inr ⟨fun hn => absurd hlt (Nat.not_lt.mpr (hopened.resolver n hn).1), ?_⟩
      obtain ⟨early, hearly, -, hgiven'⟩ := horderly.watches n before hbefore
      rw [hsame, hearly]
      exact hspares hgiven' (by simp)
    · obtain ⟨hn, hkey⟩ := hopened.alone n w hw hbegun.number
      exact .inl ⟨hn, hwatch n w hw hn, hkey⟩
  · intro other c' hc'
    rw [hall] at hc'
    split at hc'
    · exact .inl (Option.some.inj hc' ▸ .refl c)
    · obtain ⟨⟨early, hearly, -, hgiven'⟩, -⟩ := horderly.connections other c' hc'
      obtain ⟨marks', hguarded⟩ := horderly.guarded other c' hc'
      refine .inr ⟨?_, fun n hn hown => ?_⟩
      · rw [hearly]
        exact hspares hgiven' (by simp)
      · exact absurd (hguarded.watch n hn) (Nat.not_lt.mpr (hopened.resolver n hown).1)

/-- **Whatever is done with a connector, its connections stay in order.** -/
theorem orderly_errand (h : o.Sound config byAuthority) (horderly : o.Orderly) (e : Errand) :
    (o.step e).Orderly := by
  have hgrows := grows_errand h e
  constructor
  case watches =>
    intro n w' hw'
    rcases hgrows.watches n w' hw' with ⟨w, hw, htoken, -⟩ | hbegun
    · obtain ⟨mark, hmark, hthree, hgiven⟩ := horderly.watches n w hw
      exact ⟨mark, htoken.trans hmark, hthree, Nat.lt_of_lt_of_le hgiven hgrows.marks⟩
    · obtain ⟨mark, hmark, hlater, hgiven⟩ := hbegun.token
      exact ⟨mark, hmark, Nat.le_trans h.marks hlater, hgiven⟩
  case connections =>
    have hold (name : String) (c c' : Connection)
        (hc : o.connector.connection? name = some c) (hsame : c.Same c') :
        (∃ mark, c'.token = ⟨[mark, 0]⟩ ∧ 3 ≤ mark ∧ mark < (o.step e).shared.tokens.next) ∧
          c'.box < (o.step e).shared.outboxes.length ∧
          ∀ n w, (o.step e).chronicle.watch? n = some w → w.box = c'.box →
            c'.resolver = some n := by
      obtain ⟨⟨mark, hmark, hthree, hgiven⟩, hbox, halone⟩ := horderly.connections name c hc
      rw [hsame.token, hsame.box, hsame.resolver]
      refine ⟨⟨mark, hmark, hthree, Nat.lt_of_lt_of_le hgiven hgrows.marks⟩,
        Nat.lt_of_lt_of_le hbox hgrows.room, fun n w' hw' hshared => ?_⟩
      rcases hgrows.watches n w' hw' with ⟨w, hw, -, hkept, -⟩ | hbegun
      · exact halone n w hw (hkept.symm.trans hshared)
      · have hroom : o.shared.outboxes.length ≤ w'.box := hbegun.box
        omega
    intro name c' hc'
    rcases connections_errand h e with hkept | ⟨opened, c, hopened, hall⟩
    · obtain ⟨c, hc, hsame⟩ := hkept name c' hc'
      exact hold name c c' hc hsame
    · rw [hall] at hc'
      split at hc'
      · obtain rfl := Option.some.inj hc'
        obtain ⟨mark, htoken, hlater, hgiven⟩ := hopened.token
        refine ⟨⟨mark, htoken, Nat.le_trans h.marks hlater, hgiven⟩, hopened.box,
          fun n w hw hshared => ?_⟩
        rcases hgrows.watches n w hw with ⟨before, hbefore, -, hkept, -⟩ | hbegun
        · have hboxed : before.box < o.shared.outboxes.length :=
            h.chronicle.boxed n before hbefore
          have hroom : o.shared.outboxes.length ≤ c.box := hopened.room
          omega
        · exact (hopened.alone n w hw hbegun.number).1
      · exact hold name c' c' hc' (.refl c')
  case janitors =>
    intro j' hj'
    obtain ⟨n, hn⟩ := List.mem_iff_getElem?.mp hj'
    obtain ⟨j, hj, htoken, -⟩ := hgrows.janitors n j' hn
    exact htoken.trans (horderly.janitors j (List.mem_of_getElem? hj))
  case guarded =>
    intro name c' hc'
    rcases connections_errand h e with hkept | ⟨opened, c, hopened, hall⟩
    · obtain ⟨c, hc, hsame⟩ := hkept name c' hc'
      obtain ⟨marks, hguarded⟩ := horderly.guarded name c hc
      exact ⟨marks, (guarded_errand h hguarded e).same hsame⟩
    · have hfound := hall name
      rw [hc'] at hfound
      split at hfound
      · obtain rfl := Option.some.inj hfound
        exact guarded_opened h horderly hgrows hopened hall
      · obtain ⟨marks, hguarded⟩ := horderly.guarded name c' hfound.symm
        exact ⟨marks, guarded_errand h hguarded e⟩

theorem orderly_start (config : Config) (directory : Directory) (byAuthority : Bool)
    (draw : Nat → Float) : (start config directory byAuthority draw).Orderly := by
  obtain ⟨hwatches, hjanitors⟩ :
      (start config directory byAuthority draw).connector.exchange.watches = [] ∧
        ∀ j ∈ (start config directory byAuthority draw).connector.exchange.janitors,
          j.token = ⟨[1, 0]⟩ := by
    show (Option.getD (Exchange.janitor? _ _ _) _).watches = [] ∧
      ∀ j ∈ (Option.getD (Exchange.janitor? _ _ _) _).janitors, j.token = ⟨[1, 0]⟩
    unfold Exchange.janitor?
    cases Rhythm.start? config.resolver.cacheClearInterval _ with
    | none => exact ⟨rfl, fun j hj => absurd hj List.not_mem_nil⟩
    | some rhythm =>
        refine ⟨rfl, fun j hj => ?_⟩
        rw [List.mem_singleton.mp hj]
        rfl
  constructor
  · intro n w hw
    rw [watch?, chronicle, hwatches] at hw
    cases hw
  · exact fun _ _ h => by cases h
  · exact hjanitors
  · exact fun _ _ h => by cases h

end Office

theorem Bureau.grows_run {config : Config} {byAuthority : Bool} {b : Bureau}
    (hsound : b.office.Sound config byAuthority) (affairs : List Affair) :
    Grows b.office.chronicle (run affairs b).office.chronicle :=
  (keeps_run (P := fun o => Grows b.office.chronicle o.chronicle)
    (fun _ e hsound hgrows => hgrows.trans (Office.grows_errand hsound e)) hsound (.refl _)
    affairs).2

theorem Bureau.orderly_step {config : Config} {byAuthority : Bool} {b : Bureau}
    (hsound : b.office.Sound config byAuthority) (horderly : b.office.Orderly) (a : Affair) :
    (b.step a).office.Sound config byAuthority ∧ (b.step a).office.Orderly :=
  keeps_step (fun _ e hsound horderly => Office.orderly_errand hsound horderly e) hsound horderly a

/-- Everything that has happened at a bureau has left its connections in order. -/
theorem Bureau.orderly_run (config : Config) (directory : Directory) (byAuthority : Bool)
    (draw : Nat → Float) (affairs : List Affair) :
    (run affairs (start config directory byAuthority draw)).office.Sound config byAuthority ∧
      (run affairs (start config directory byAuthority draw)).office.Orderly :=
  keeps_run (fun _ e hsound horderly => Office.orderly_errand hsound horderly e)
    (Office.sound_start config directory byAuthority draw)
    (Office.orderly_start config directory byAuthority draw) affairs

end Dialer
