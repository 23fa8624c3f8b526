import Dialer.Proofs.Connector.Holdings

/-!
# What is published for a connection

A connection has an outbox of its own. Into it goes what its builder publishes at once, and later
what its watch publishes, if it has one, and nothing else: the outbox holds these sets at any time
(`Office.Held`). So an endpoint or a literal that was published while the connection was made stays
its only set, and of the sets of a watch the journal tells each.

What a connection has seen of its outbox is left alone by all that happens at a bureau, unless
someone reads the news under its name (`Bureau.updates_step`).
-/

namespace Dialer

open Resolver Chronicle

namespace Office

variable {config : Config} {byAuthority : Bool} {o : Office}

/-- The sets published for a connection since its making began, the latest first. -/
def sets (o : Office) (offered : List (List Address)) (c : Connection) : List (List Address) :=
  (match c.resolver with
    | some n => (o.journal.publications n).map (·.addresses)
    | none => []) ++ offered

theorem connections_background (o : Office) (occurrence : Occurrence) :
    (o.step (.background occurrence)).connector.connections = o.connector.connections := by
  simp only [step]
  split <;> rfl

/-! ## Outboxes -/

/-- Where no watch goes on, and nobody else publishes, the outboxes stay as they are. -/
theorem outboxes_background {v : Chronicle} {occurrence : Occurrence}
    (hbackground : occurrence.isBackground = true) (hstays : ∀ n, occurrence ≠ .go n) :
    (v.step occurrence).shared.outboxes = v.shared.outboxes := by
  cases occurrence with
  | go n => exact absurd rfl (hstays n)
  | sweep n =>
      show (v.exchange.run (.janitor n)).shared.outboxes = v.exchange.shared.outboxes
      obtain ⟨janitors, hsame | ⟨due, number, hclear⟩⟩ := sweep_cases v.exchange n
      · rw [hsame]
      · rw [hclear]
        rfl
  | clear => rfl
  | pass now =>
      simp only [Chronicle.step]
      split <;> rfl
  | jump now =>
      simp only [Chronicle.step]
      split <;> rfl
  | retire => rfl
  | elsewhere metrics directory => rfl
  | _ => cases hbackground

theorem outboxes_cancel (x : Exchange) (t : Token) :
    (x.cancel t).shared.outboxes = x.shared.outboxes := by
  obtain ⟨agenda, hcancel, -⟩ := cancel_eq x t
  rw [hcancel]
  rfl

/-- Only for a new connection there is a new outbox, and only a watch that goes on publishes into an
old one. -/
theorem outboxes_errand (o : Office) {e : Errand} (hstays : ∀ n, e ≠ .background (.go n)) :
    ∃ more, (o.step e).shared.outboxes = o.shared.outboxes ++ more := by
  have hsame {o' : Office} (h : o'.shared.outboxes = o.shared.outboxes) :
      ∃ more, o'.shared.outboxes = o.shared.outboxes ++ more :=
    ⟨[], h.trans (List.append_nil _).symm⟩
  have hdone {name : String} {f : Connector → Connection → Connector}
      (h : ∀ c, (f o.connector c).exchange.shared.outboxes = o.shared.outboxes) :
      ∃ more, (o.withConnection name f).shared.outboxes = o.shared.outboxes ++ more := by
    rcases o.withConnection_cases name f with hnone | ⟨entry, -, hdone⟩
    · rw [hnone]
      exact hsame rfl
    · rw [hdone]
      exact hsame (h entry.2)
  cases e with
  | connect name raw =>
      simp only [step]
      cases hconnect : o.connector.connect name raw with
      | error error => exact hsame rfl
      | ok connector =>
          obtain ⟨t, b, policy, resolver, x, -, -, hbuild, -, houtboxes, -⟩ :=
            connect_makes hconnect
          obtain ⟨⟨box, hbox, -⟩, -⟩ := build_opens hbuild
          exact ⟨[box], houtboxes.trans hbox⟩
  | drop name => exact hsame (drop_keeps o.connector name).2.1
  | close name =>
      refine hdone fun c => ?_
      exact (close_keeps _ c.resolver).2.1.trans (outboxes_cancel _ c.token)
  | refresh name =>
      refine hdone fun c => ?_
      show (o.connector.exchange.refresh c.resolver 1).shared.outboxes = _
      obtain ⟨agenda, hrefresh⟩ := o.connector.exchange.refresh_shared c.resolver 1
      rw [hrefresh]
      rfl
  | stop => exact hsame (outboxes_cancel _ _)
  | register scheme addresses complaint => exact hsame rfl
  | use name breaker updates => exact hdone fun _ => rfl
  | background occurrence =>
      simp only [step]
      split
      · rename_i hbackground
        exact hsame (outboxes_background (v := o.chronicle) hbackground
          fun n hgo => hstays n (congrArg Errand.background hgo))
      · exact hsame rfl

/-- An outbox that belongs to no watch stays as it is. -/
theorem box_errand (o : Office) {n : Nat} (hroom : n < o.shared.outboxes.length)
    (halone : ∀ m w, o.chronicle.watch? m = some w → w.box ≠ n) (e : Errand) :
    (o.step e).shared.box n = o.shared.box n := by
  by_cases hgo : ∃ m, e = .background (.go m)
  · obtain ⟨m, rfl⟩ := hgo
    show (o.chronicle.go m).shared.box n = o.chronicle.shared.box n
    unfold Chronicle.go
    cases hwatch : o.chronicle.watch? m with
    | none => rfl
    | some w =>
        dsimp only
        split
        · rfl
        · have htold := (Loop.standing w (o.chronicle.points m)).step_told o.chronicle.shared
          refine htold.box_ne ?_
          rw [(standing_keeps w (o.chronicle.points m)).2.2.2]
          exact halone m w hwatch
  · obtain ⟨more, hmore⟩ := o.outboxes_errand fun m he => hgo ⟨m, he⟩
    simp only [Shared.box, List.getD, hmore, List.getElem?_append_left hroom]

/-! ## Sets -/

theorem journal_step {v : Chronicle} (hsound : v.Sound) (occurrence : Occurrence) :
    ∃ more, (v.step occurrence).journal = more ++ v.journal := by
  have htakes := v.step_takes occurrence hsound.within
  generalize v.step occurrence = v' at htakes ⊢
  cases htakes with
  | acts n w deeds l shared => exact ⟨deeds.map (⟨n, w.assignment, v.shared.now, ·⟩), rfl⟩
  | alters => exact ⟨[], rfl⟩
  | begins => exact ⟨[], rfl⟩
  | aside _ haside => exact ⟨[], haside.journal⟩

/-- The journal only gets longer. -/
theorem journal_errand (h : o.Sound config byAuthority) (e : Errand) :
    ∃ more, (o.step e).journal = more ++ o.journal := by
  obtain ⟨occurrences, hserves, hrun⟩ := (errand_reaches true h e fun _ => rfl).2
  have hgrown := run_keeps (P := fun v => ∃ more, v.journal = more ++ o.journal)
    (Serves config byAuthority true) ?_ h.chronicle hserves ⟨[], rfl⟩
  · rw [hrun] at hgrown
    exact hgrown
  · rintro v occurrence hsound - ⟨before, hbefore⟩
    obtain ⟨more, hmore⟩ := journal_step hsound occurrence
    exact ⟨more ++ before, by rw [hmore, hbefore, List.append_assoc]⟩

/-- With the journal grow the sets. -/
theorem sets_append {o' : Office} (hjournal : ∃ more, o'.journal = more ++ o.journal)
    {c c' : Connection} (hsame : c.Same c') (offered : List (List Address)) :
    ∃ new, o'.sets offered c' = new ++ o.sets offered c := by
  obtain ⟨more, hmore⟩ := hjournal
  unfold sets
  rw [hsame.resolver]
  cases c.resolver with
  | none => exact ⟨[], rfl⟩
  | some n =>
      refine ⟨(Journal.publications n more).map (·.addresses), ?_⟩
      simp [hmore, Journal.publications, Journal.of]

/-- The outbox of a connection with a watch holds what that has published. -/
theorem published_watched (h : o.Sound config byAuthority) {name : String} {c : Connection}
    (hfound : o.connector.connection? name = some c) {n : Nat} (hn : c.resolver = some n) :
    (o.shared.box c.box).published = o.journal.publications n := by
  obtain ⟨entry, hentry, rfl⟩ := mem_of_lookup hfound
  obtain ⟨w, hwatch, hbox, -⟩ := (h.connections entry hentry).watch n hn
  rw [← hbox]
  exact h.chronicle.published n w hwatch

/-- The outbox of a connection, which is told from others of its name by its token, holds its sets. -/
structure Held (o : Office) (name : String) (token : Token) (offered : List (List Address)) :
    Prop where
  orderly : o.Orderly
  given : ∃ mark, token = ⟨[mark, 0]⟩ ∧ mark < o.shared.tokens.next
  published : ∀ c, o.connector.connection? name = some c → c.token = token →
    (o.shared.box c.box).published.map (·.addresses) = o.sets offered c

variable {name : String} {token : Token} {offered : List (List Address)}

/-- A new connection has a token that was not given out before. -/
theorem Held.old (h : o.Held name token offered) {o' : Office} {other : String} {c c' : Connection}
    (hopened : Opened o.chronicle o'.chronicle c)
    (hall : ∀ another, o'.connector.connection? another =
      if another = other then some c else o.connector.connection? another)
    (hfound : o'.connector.connection? name = some c') (htoken : c'.token = token) :
    o.connector.connection? name = some c' := by
  rw [hall] at hfound
  split at hfound
  · obtain rfl := Option.some.inj hfound
    obtain ⟨mark, hmark, hlt⟩ := h.given
    obtain ⟨new, hnew, hle, -⟩ := hopened.token
    rw [htoken, hmark] at hnew
    obtain rfl : mark = new := by simpa using hnew
    exact absurd hle (Nat.not_le.mpr hlt)
  · exact hfound

/-- **The outbox of a connection holds its sets,** whatever is done. -/
theorem held_errand (hsound : o.Sound config byAuthority) (h : o.Held name token offered)
    (e : Errand) : (o.step e).Held name token offered := by
  have hsound' := sound_errand hsound e
  constructor
  · exact orderly_errand hsound h.orderly e
  · obtain ⟨mark, hmark, hlt⟩ := h.given
    exact ⟨mark, hmark, Nat.lt_of_lt_of_le hlt (grows_errand hsound e).marks⟩
  · intro c' hfound htoken
    obtain ⟨c, hc, hsame⟩ : ∃ c, o.connector.connection? name = some c ∧ c.Same c' := by
      rcases connections_errand hsound e with hold | ⟨other, c, hopened, hall⟩
      · exact hold name c' hfound
      · exact ⟨c', h.old hopened hall hfound htoken, .refl c'⟩
    have hbefore := h.published c hc (hsame.token ▸ htoken)
    cases hresolver : c.resolver with
    | some n =>
        have hresolver' : c'.resolver = some n := hsame.resolver.trans hresolver
        have hnothing : offered = [] := by
          rw [published_watched hsound hc hresolver] at hbefore
          simpa [sets, hresolver] using hbefore
        rw [published_watched hsound' hfound hresolver', sets, hresolver', hnothing,
          List.append_nil]
    | none =>
        have hresolver' : c'.resolver = none := hsame.resolver.trans hresolver
        obtain ⟨-, hroom, halone⟩ := h.orderly.connections name c hc
        have hbox := o.box_errand hroom (e := e) fun m w hwatch hown => by
          have hm := halone m w hwatch hown
          rw [hresolver] at hm
          cases hm
        rw [hsame.box, hbox, hbefore, sets, sets, hresolver, hresolver']

/-- A new connection holds what its builder has published at once, and has seen nothing of it. -/
theorem held_connect (hsound : o.Sound config byAuthority) (horderly : o.Orderly) {raw : String}
    {connector : Connector} (hconnect : o.connector.connect name raw = .ok connector) :
    ∃ c b, connector.connection? name = some c ∧
      o.connector.registry.get? c.target.scheme = some b ∧ c.updates = ⟨0⟩ ∧
      Held { o with connector } name c.token (Office.offered c.target b) := by
  have hstep : o.step (.connect name raw) = { o with connector } := by
    simp only [step, hconnect]
  have hsound' : Sound config byAuthority { o with connector } :=
    hstep ▸ sound_errand hsound (.connect name raw)
  have horderly' : Orderly { o with connector } :=
    hstep ▸ orderly_errand hsound horderly (.connect name raw)
  obtain ⟨t, b, policy, resolver, x, -, hget, hbuild, -, houtboxes, hnext, hall⟩ :=
    connect_makes hconnect
  obtain ⟨⟨box, hboxes, hoffered⟩, hmade⟩ := build_opens hbuild
  have hfound : connector.connection? name = some (fresh o.connector raw t policy resolver x) := by
    rw [hall, if_pos rfl]
  have hnew : connector.exchange.shared.box o.shared.outboxes.length = box := by
    have hlength : o.connector.exchange.shared.outboxes.length = o.shared.outboxes.length := rfl
    rw [Shared.box, List.getD, houtboxes, hboxes, ← hlength, List.getElem?_concat_length]
    rfl
  refine ⟨fresh o.connector raw t policy resolver x, b, hfound, hget, ?_, horderly', ?_, ?_⟩
  · have hempty : o.shared.openBox.2.box o.shared.outboxes.length = .empty := by
      simp [Shared.openBox, Shared.box]
    show (o.shared.openBox.2.box o.shared.outboxes.length).subscribe = ⟨0⟩
    rw [hempty]
    rfl
  · refine ⟨x.shared.tokens.next, ?_, ?_⟩
    · show Token.mk (_ :: o.connector.shutdown.origin.lineage) = _
      rw [hsound.origin]
    · show x.shared.tokens.next < connector.exchange.shared.tokens.next
      rw [hnext]
      exact Nat.lt_succ_self _
  · intro c hc _
    obtain rfl := Option.some.inj (hfound.symm.trans hc)
    show (connector.exchange.shared.box o.shared.outboxes.length).published.map _ = _
    rcases hmade with ⟨rfl, -⟩ | ⟨rfl, hnothing, -⟩
    · rw [hnew, hoffered]
      rfl
    · -- the watch has not published yet, and all that is there would be told in the journal
      have hwatched := published_watched hsound' hfound (n := o.connector.exchange.watches.length) rfl
      have hbox : (connector.exchange.shared.box o.shared.outboxes.length).published =
          o.journal.publications o.connector.exchange.watches.length := hwatched
      have hoffered : offered (fresh o.connector raw t policy
          (some o.connector.exchange.watches.length) x).target b = [] := hnothing
      rw [hbox, hoffered]
      exact (List.append_nil _).symm

end Office

/-! ## What a connection has seen -/

namespace Bureau

variable {config : Config} {byAuthority : Bool} {b : Bureau} {name : String}

/-- Calls that leave a connection change only its breaker. -/
theorem updates_leave {o : Office} {other : String} {c c' : Connection} {l : Line}
    {breaker : Breaker} (hother : o.connector.connection? other = some c)
    (hleft : l.connection = { c with breaker })
    (hfound : (o.leave other l).connector.connection? name = some c') :
    ∃ c, o.connector.connection? name = some c ∧ c.Same c' ∧ c'.updates = c.updates := by
  have hupdate : (o.leave other l).connector.connection? name =
      if name = other then (o.connector.connection? other).map fun _ => l.connection
      else o.connector.connection? name :=
    Connector.connection?_update { o.connector with exchange := l.exchange } other l.connection name
  rw [hupdate] at hfound
  split at hfound
  · rename_i hname
    rw [hother, hleft] at hfound
    obtain rfl := Option.some.inj hfound
    exact ⟨c, hname ▸ hother, ⟨rfl, rfl, rfl, rfl, rfl⟩, rfl⟩
  · exact ⟨c', hfound, .refl c', rfl⟩

theorem updates_use (b : Bureau) (i : Nat) (draw : Float) {f : Session → Line → Session × Line}
    (hf : Steady f) {c' : Connection}
    (hfound : (b.use i draw f).connector.connection? name = some c') :
    ∃ c, b.connector.connection? name = some c ∧ c.Same c' ∧ c'.updates = c.updates := by
  rcases hf.use_cases b i draw with hsame | ⟨v, c, session, breaker, asks, metrics, -, hhost, huse⟩
  · rw [hsame] at hfound
    exact ⟨c', hfound, .refl c', rfl⟩
  · rw [huse] at hfound
    exact updates_leave (host?_eq_some.mp hhost).1 rfl hfound

/-- **Unless someone reads the news under its name, a connection has seen what it had seen before.** -/
theorem updates_step {token : Token} {offered : List (List Address)}
    (hsound : b.office.Sound config byAuthority) (h : b.office.Held name token offered) {a : Affair}
    (hread : a ≠ .read name) {c' : Connection}
    (hfound : (b.step a).connector.connection? name = some c') (htoken : c'.token = token) :
    ∃ c, b.connector.connection? name = some c ∧ c.Same c' ∧ c'.updates = c.updates := by
  have hsame (hkept : (b.step a).connector.connections = b.connector.connections) :
      ∃ c, b.connector.connection? name = some c ∧ c.Same c' ∧ c'.updates = c.updates := by
    rw [Connector.connection?, hkept] at hfound
    exact ⟨c', hfound, .refl c', rfl⟩
  cases a with
  | order e =>
      simp only [step] at hfound
      split at hfound
      · rename_i horder
        have huse : ∀ other breaker updates, e ≠ .use other breaker updates := by
          rintro other breaker updates rfl
          cases horder
        rcases Office.connections_order hsound huse with hold | ⟨other, c, hopened, hall⟩
        · exact ⟨c', hold name c' hfound, .refl c', rfl⟩
        · exact ⟨c', h.old hopened hall hfound htoken, .refl c', rfl⟩
      · exact ⟨c', hfound, .refl c', rfl⟩
  | stop => exact hsame rfl
  | join i => exact hsame rfl
  | goOn n answer =>
      refine hsame ?_
      show ((b.office.expect n answer).step (.background (.go n))).connector.connections = _
      rw [Office.connections_background, Office.expect]
      split
      · exact Office.connections_background _ _
      · rfl
  | sweep n => exact hsame (Office.connections_background _ _)
  | overrun n =>
      refine hsame ?_
      simp only [step]
      split
      · exact Office.connections_background _ _
      · rfl
  | clear => exact hsame (Office.connections_background _ _)
  | elapse now => exact hsame (Office.connections_background _ _)
  | observe other =>
      cases hother : b.office.connector.connection? other with
      | none =>
          have hstep : b.step (.observe other) = b := by
            simp only [step, via, Office.withConnection, hother]
          rw [hstep] at hfound
          exact ⟨c', hfound, .refl c', rfl⟩
      | some c =>
          obtain ⟨metrics, hobserve⟩ := (b.office.connector.line c).observe_eq
          have hstep : (b.step (.observe other)).office =
              b.office.leave other (b.office.connector.line c).observe.1 := by
            simp only [step, via, Office.withConnection, hother]
            rfl
          have hleft := congrArg (fun o : Office => o.connector.connection? name) hstep
          exact updates_leave hother (by rw [hobserve]; rfl) (hleft.symm.trans hfound)
  | read other =>
      -- whoever reads under another name does not move this connection on
      have hne : name ≠ other := fun hname => hread (congrArg Affair.read hname.symm)
      cases hother : b.office.connector.connection? other with
      | none =>
          have hstep : b.step (.read other) = b := by
            simp only [step, via, Office.withConnection, hother]
          rw [hstep] at hfound
          exact ⟨c', hfound, .refl c', rfl⟩
      | some c =>
          simp only [step, via, connector, Office.withConnection, hother] at hfound
          rw [Connector.connection?_update, if_neg hne] at hfound
          exact ⟨c', hfound, .refl c', rfl⟩
  | place other operation =>
      refine hsame ?_
      simp only [step]
      split <;> rfl
  | call i draw => exact b.updates_use i draw steady_goOn hfound
  | hangUp i => exact b.updates_use i 0 steady_hangUp hfound

/-- What is published for a connection is added to its sets, and is in its outbox. -/
theorem held_step {token : Token} {offered : List (List Address)}
    (hsound : b.office.Sound config byAuthority) (h : b.office.Held name token offered) (a : Affair) :
    (b.step a).office.Sound config byAuthority ∧ (b.step a).office.Held name token offered ∧
      ∃ more, (b.step a).office.journal = more ++ b.office.journal := by
  refine keeps_step (P := fun o => o.Held name token offered ∧
    ∃ more, o.journal = more ++ b.office.journal) ?_ hsound ⟨h, [], rfl⟩ a
  rintro o e hsound ⟨hheld, before, hbefore⟩
  obtain ⟨more, hmore⟩ := Office.journal_errand hsound e
  exact ⟨Office.held_errand hsound hheld e, more ++ before, by
    rw [hmore, hbefore, List.append_assoc]⟩

end Bureau

end Dialer
