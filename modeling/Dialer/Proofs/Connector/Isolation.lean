import Dialer.Proofs.Connector.Veil

/-!
# Two connectors that differ in one connection

Two connectors look the same through a veil if their exchanges do, and all connections
(`Veil.Agrees`); of the hidden connection the breaker and the calls are left out as well, and of
every connection with a hidden watch how much of its addresses has been read. With the visits these
are two bureaus that look the same (`Veil.Twins`).

* What a veil hides belongs to the connection alone (`Veil.Covers`), so what happens behind the veil
  does not show: the hidden connection is used (`Twins.use_hidden`), and it is closed
  (`Twins.close`).
* Whatever else happens keeps up the likeness, one case for each kind of affair (`Twins.step`). The
  one exception is a loop that reads a cache entry that is hidden.
-/

namespace Dialer

open Resolver Chronicle

namespace Veil

variable (veil : Veil)

/-- Is not even shown what of its addresses a connection has seen? -/
def blurs (c : Connection) : Bool :=
  if veil.wide then c.target.endpoint = veil.key else c.token = veil.connection.token

/-- How a connection looks. -/
def face (c : Connection) : Connection :=
  { c with
    breaker := if c.token = veil.connection.token then veil.connection.breaker else c.breaker
    updates := if veil.blurs c then veil.connection.updates else c.updates }

/-- Two offices look the same. -/
structure Agrees (o o' : Office) : Prop where
  config : o'.connector.config = o.connector.config
  registry : o'.connector.registry = o.connector.registry
  shutdown : o'.connector.shutdown = o.connector.shutdown
  chronicle : veil.Alike o.chronicle o'.chronicle
  connections : ∀ name, (o'.connector.connection? name).map veil.face =
    (o.connector.connection? name).map veil.face

variable {veil} {o o' o'' : Office} {c c' : Connection} {name : String}

/-- What can be told of any connection. -/
theorem told_of_face (h : veil.face c' = veil.face c) :
    c.Same c' ∧ (c.token ≠ veil.connection.token → c'.breaker = c.breaker) ∧
      (veil.blurs c = false → c'.updates = c.updates) := by
  have hkept (c : Connection) : c.Same (veil.face c) := ⟨rfl, rfl, rfl, rfl, rfl⟩
  have hsame : c.Same c' := (hkept c).trans (h ▸ (hkept c').symm)
  refine ⟨hsame, fun htoken => ?_, fun hshown => ?_⟩
  · have hbreaker := congrArg Connection.breaker h
    simp only [face, hsame.token, if_neg htoken] at hbreaker
    exact hbreaker
  · have hblurs : veil.blurs c' = veil.blurs c := by
      unfold blurs
      rw [hsame.target, hsame.token]
    have hupdates := congrArg Connection.updates h
    simp only [face, hblurs, hshown] at hupdates
    exact hupdates

theorem eq_of_face (h : veil.face c' = veil.face c) (htoken : c.token ≠ veil.connection.token)
    (hshown : veil.blurs c = false) : c' = c := by
  obtain ⟨⟨htarget, hresolver, hbox, hpolicy, hsame⟩, hbreaker, hupdates⟩ := told_of_face h
  rcases c' with ⟨target, resolver, box, updates, breaker, policy, token⟩
  simp only at htarget hresolver hbox hpolicy hsame hbreaker hupdates
  rw [htarget, hresolver, hbox, hpolicy, hsame, hbreaker htoken, hupdates hshown]

namespace Agrees

theorem refl (veil : Veil) (o : Office) : veil.Agrees o o :=
  ⟨rfl, rfl, rfl, .refl veil _, fun _ => rfl⟩

theorem symm (h : veil.Agrees o o') : veil.Agrees o' o :=
  ⟨h.config.symm, h.registry.symm, h.shutdown.symm, h.chronicle.symm,
    fun name => (h.connections name).symm⟩

theorem trans (h : veil.Agrees o o') (h' : veil.Agrees o' o'') : veil.Agrees o o'' :=
  ⟨h'.config.trans h.config, h'.registry.trans h.registry, h'.shutdown.trans h.shutdown,
    h.chronicle.trans h'.chronicle, fun name => (h'.connections name).trans (h.connections name)⟩

theorem both {p p' : Office} (h : veil.Agrees o o') (hself : veil.Agrees o p)
    (hself' : veil.Agrees o' p') : veil.Agrees p p' :=
  hself.symm.trans (h.trans hself')

theorem find (h : veil.Agrees o o') (hc : o.connector.connection? name = some c) :
    ∃ c', o'.connector.connection? name = some c' ∧ veil.face c' = veil.face c := by
  have hsame := h.connections name
  rw [hc, Option.map_some] at hsame
  exact Option.map_eq_some_iff.mp hsame

theorem missing (h : veil.Agrees o o') (hc : o.connector.connection? name = none) :
    o'.connector.connection? name = none := by
  have hsame := h.connections name
  rwa [hc, Option.map_none, Option.map_eq_none_iff] at hsame

/-- Nothing but the exchange has changed. -/
theorem via (h : veil.Agrees o o') {v v' : Chronicle} (halike : veil.Alike v v') :
    veil.Agrees (o.withChronicle v) (o'.withChronicle v') :=
  ⟨h.config, h.registry, h.shutdown, halike, h.connections⟩

theorem via_self {v : Chronicle} (halike : veil.Alike o.chronicle v) :
    veil.Agrees o (o.withChronicle v) :=
  ⟨rfl, rfl, rfl, halike, fun _ => rfl⟩

theorem update (h : veil.Agrees o o') (hface : veil.face c' = veil.face c) :
    veil.Agrees { o with connector := o.connector.update name c }
      { o' with connector := o'.connector.update name c' } := by
  refine ⟨h.config, h.registry, h.shutdown, h.chronicle, fun other => ?_⟩
  rw [Connector.connection?_update, Connector.connection?_update]
  split
  · cases hc : o.connector.connection? name with
    | none =>
        rw [h.missing hc]
        rfl
    | some before =>
        obtain ⟨before', hc', -⟩ := h.find hc
        rw [hc']
        exact congrArg some hface
  · exact h.connections other

theorem update_self {before : Connection} (hc : o.connector.connection? name = some before)
    (hface : veil.face c = veil.face before) :
    veil.Agrees o { o with connector := o.connector.update name c } := by
  refine ⟨rfl, rfl, rfl, .refl veil _, fun other => ?_⟩
  rw [Connector.connection?_update]
  split
  · rename_i hother
    rw [hother, hc]
    exact congrArg some hface
  · rfl

theorem drop (h : veil.Agrees o o') (name : String) :
    veil.Agrees { o with connector := o.connector.drop name }
      { o' with connector := o'.connector.drop name } := by
  have hconnections (other : String) :
      ((o'.connector.drop name).connection? other).map veil.face =
        ((o.connector.drop name).connection? other).map veil.face := by
    rw [Connector.connection?_drop, Connector.connection?_drop]
    split
    · rfl
    · exact h.connections other
  have hkept (c : Connector) : (c.drop name).config = c.config ∧
      (c.drop name).registry = c.registry ∧ (c.drop name).shutdown = c.shutdown := by
    unfold Connector.drop
    split <;> exact ⟨rfl, rfl, rfl⟩
  obtain ⟨hconfig, hregistry, hshutdown⟩ := hkept o.connector
  obtain ⟨hconfig', hregistry', hshutdown'⟩ := hkept o'.connector
  refine ⟨hconfig'.trans (h.config.trans hconfig.symm),
    hregistry'.trans (h.registry.trans hregistry.symm),
    hshutdown'.trans (h.shutdown.trans hshutdown.symm), ?_, hconnections⟩
  show veil.Alike { o.chronicle with exchange := (o.connector.drop name).exchange }
    { o'.chronicle with exchange := (o'.connector.drop name).exchange }
  unfold Connector.drop
  cases hc : o.connector.connection? name with
  | none =>
      rw [h.missing hc]
      exact h.chronicle
  | some c =>
      obtain ⟨c', hc', hface⟩ := h.find hc
      rw [hc']
      show veil.Alike { o.chronicle with exchange := o.connector.exchange.close c.resolver }
        { o'.chronicle with exchange := o'.connector.exchange.close c'.resolver }
      rw [(told_of_face hface).1.resolver]
      cases c.resolver with
      | none => exact h.chronicle
      | some n => exact alike_close h.chronicle n

/-! ## Orders -/

theorem fresh_eq (h : veil.Agrees o o') (raw : String) (t : Target) (policy : RetryPolicy)
    (r : Handle) {x x' : Exchange} (hnext : x'.shared.tokens.next = x.shared.tokens.next) :
    Office.fresh o'.connector raw t policy r x' = Office.fresh o.connector raw t policy r x := by
  have hroom : o'.connector.exchange.shared.outboxes.length =
      o.connector.exchange.shared.outboxes.length := h.chronicle.room
  have hnow : o'.connector.now = o.connector.now := h.chronicle.now
  have hempty (s : Shared) : s.openBox.2.box s.outboxes.length = .empty := by
    rw [box_openBox]
    simp [Shared.box]
  have hupdates := (hempty o'.connector.exchange.shared).trans
    (hempty o.connector.exchange.shared).symm
  rw [Office.fresh, hupdates]
  simp only [Office.fresh, Exchange.childToken, Cancellations.child, hroom, hnow, hnext, h.config,
    h.shutdown]

theorem establish (h : veil.Agrees o o') {b : Builder}
    (hbuilder : ∀ options, b = .dns options → options.shutdown.isSome) (raw : String) (t : Target)
    (policy : RetryPolicy) :
    (∃ e, o.connector.establish raw t b policy = .error e ∧
      o'.connector.establish raw t b policy = .error e) ∨
    ∃ c made made', o.connector.establish raw t b policy = .ok (c, made) ∧
      o'.connector.establish raw t b policy = .ok (c, made') ∧
      veil.Agrees { o with connector := made } { o' with connector := made' } := by
  have hroom : o'.connector.exchange.shared.outboxes.length =
      o.connector.exchange.shared.outboxes.length := h.chronicle.room
  have hbuild := alike_build (alike_openBox h.chronicle) hbuilder t
    o.connector.exchange.shared.outboxes.length
  rw [Office.establish_eq, Office.establish_eq, hroom]
  rcases hbuild with ⟨e, hbuild, hbuild'⟩ | ⟨r, x, x', hbuild, hbuild', halike⟩
  · refine .inl ⟨e, congrArg (Except.map _) hbuild, congrArg (Except.map _) hbuild'⟩
  · refine .inr ⟨Office.fresh o.connector raw t policy r x,
      { o.connector with exchange := (x.childToken o.connector.shutdown.origin).2 },
      { o'.connector with exchange := (x'.childToken o'.connector.shutdown.origin).2 },
      congrArg (Except.map _) hbuild, (congrArg (Except.map _) hbuild').trans ?_, ?_⟩
    · exact congrArg (fun c => Except.ok (c, _)) (h.fresh_eq raw t policy r halike.next)
    · exact ⟨h.config, h.registry, h.shutdown, alike_mint halike o.connector.shutdown.origin,
        h.connections⟩

theorem connect (h : veil.Agrees o o')
    (hbuilders : ∀ entry ∈ o.connector.registry.builders, ∀ options, entry.2 = .dns options →
      options.shutdown.isSome) (name raw : String) :
    veil.Agrees (o.step (.connect name raw)) (o'.step (.connect name raw)) := by
  have hconnect : (∃ e, o.connector.connect name raw = .error e ∧
      o'.connector.connect name raw = .error e) ∨
      ∃ c made made', o.connector.connect name raw = .ok { made.drop name with
          connections := (made.drop name).connections ++ [(name, c)] } ∧
        o'.connector.connect name raw = .ok { made'.drop name with
          connections := (made'.drop name).connections ++ [(name, c)] } ∧
        veil.Agrees { o with connector := made } { o' with connector := made' } := by
    unfold Connector.connect
    rw [h.config, h.registry]
    cases (Target.parse raw o.connector.config.resolver.ports).mapError ConnectError.parse with
    | error e => exact .inl ⟨e, rfl, rfl⟩
    | ok t =>
        simp only [bind, Except.bind]
        cases hget : o.connector.registry.get? t.scheme with
        | none => exact .inl ⟨_, rfl, rfl⟩
        | some b =>
            dsimp only
            cases (RetryPolicy.ofConfig o.connector.config.retries).mapError
                ConnectError.backoff with
            | error e => exact .inl ⟨e, rfl, rfl⟩
            | ok policy =>
                dsimp only
                have hbuilder : ∀ options, b = .dns options → options.shutdown.isSome := by
                  intro options hdns
                  obtain ⟨entry, hentry, rfl⟩ := Office.mem_of_lookup hget
                  exact hbuilders entry hentry options hdns
                rcases h.establish hbuilder raw t policy with
                  ⟨e, hestablish, hestablish'⟩ | ⟨c, made, made', hestablish, hestablish', hagrees⟩
                · rw [hestablish, hestablish']
                  exact .inl ⟨e, rfl, rfl⟩
                · rw [hestablish, hestablish']
                  exact .inr ⟨c, made, made', rfl, rfl, hagrees⟩
  rcases hconnect with ⟨e, hconnect, hconnect'⟩ | ⟨c, made, made', hconnect, hconnect', hagrees⟩
  · simp only [Office.step, hconnect, hconnect']
    exact h
  · simp only [Office.step, hconnect, hconnect']
    have hdropped := hagrees.drop name
    refine ⟨hdropped.config, hdropped.registry, hdropped.shutdown, hdropped.chronicle,
      fun other => ?_⟩
    have hnone (made : Connector) : (made.drop name).connection? name = none :=
      (Connector.connection?_drop made name name).trans (if_pos rfl)
    rw [Connector.connection?_append (hnone made), Connector.connection?_append (hnone made')]
    split
    · rfl
    · exact hdropped.connections other

theorem withConnection (h : veil.Agrees o o') (name : String)
    {f : Connector → Connection → Connector} (hf : ∀ c c', veil.face c' = veil.face c →
      o.connector.connection? name = some c → o'.connector.connection? name = some c' →
      veil.Agrees { o with connector := f o.connector c }
        { o' with connector := f o'.connector c' }) :
    veil.Agrees (o.withConnection name f) (o'.withConnection name f) := by
  unfold Office.withConnection
  cases hc : o.connector.connection? name with
  | none =>
      rw [h.missing hc]
      exact h
  | some c =>
      obtain ⟨c', hc', hface⟩ := h.find hc
      rw [hc']
      exact hf c c' hface hc hc'

theorem stop (h : veil.Agrees o o') : veil.Agrees (o.step .stop) (o'.step .stop) := by
  refine ⟨h.config, h.registry, h.shutdown, ?_, h.connections⟩
  have hcancel := alike_cancel h.chronicle o.connector.shutdown.origin
  show veil.Alike (o.chronicle.step (.cancel o.connector.shutdown.origin))
    (o'.chronicle.step (.cancel o'.connector.shutdown.origin))
  rwa [h.shutdown]

/-- **What is ordered is done alike.** -/
theorem order (h : veil.Agrees o o')
    (hbuilders : ∀ entry ∈ o.connector.registry.builders, ∀ options, entry.2 = .dns options →
      options.shutdown.isSome) {e : Errand} (he : e.isOrder = true) :
    veil.Agrees (o.step e) (o'.step e) := by
  cases e with
  | connect name raw => exact h.connect hbuilders name raw
  | drop name => exact h.drop name
  | close name =>
      refine h.withConnection name fun c c' hface _ _ => ?_
      obtain ⟨hsame, -⟩ := told_of_face hface
      have hcancel := alike_cancel h.chronicle c.token
      show veil.Agrees (o.withChronicle { o.chronicle with
          exchange := (o.connector.exchange.cancel c.token).close c.resolver })
        (o'.withChronicle { o'.chronicle with
          exchange := (o'.connector.exchange.cancel c'.token).close c'.resolver })
      rw [hsame.token, hsame.resolver]
      cases c.resolver with
      | none => exact h.via hcancel
      | some n => exact h.via (alike_close hcancel n)
  | refresh name =>
      refine h.withConnection name (f := fun c connection => c.refresh connection 1)
        fun c c' hface _ _ => ?_
      show veil.Agrees (o.withChronicle { o.chronicle with
          exchange := o.connector.exchange.refresh c.resolver 1 })
        (o'.withChronicle { o'.chronicle with
          exchange := o'.connector.exchange.refresh c'.resolver 1 })
      rw [(told_of_face hface).1.resolver]
      exact h.via (alike_refresh h.chronicle c.resolver 1)
  | register scheme addresses complaint =>
      exact ⟨h.config,
        congrArg (fun r : Registry => r.register (.fixed scheme addresses complaint)) h.registry,
        h.shutdown, h.chronicle, h.connections⟩
  | stop => cases he
  | use => cases he
  | background => cases he

end Agrees

/-! ## What belongs to the hidden connection -/

variable {config : Config} {byAuthority : Bool} {n : Nat} {w : Watch}

/-- A veil hides a connection of an office with all that is its own. -/
structure Covers (veil : Veil) (config : Config) (byAuthority : Bool) (o : Office) : Prop where
  sound : o.Sound config byAuthority
  orderly : o.Orderly
  guarded : Office.Guarded veil.connection veil.marks o

namespace Covers

variable (h : veil.Covers config byAuthority o)

include h

theorem hides_own (hw : o.chronicle.watch? n = some w) (hn : veil.connection.resolver = some n) :
    veil.hides w = true := by
  have hnumber := h.sound.chronicle.numbered n w hw
  unfold hides
  split
  · rcases h.guarded.watches n w hw with ⟨-, -, hkey⟩ | ⟨hother, -⟩
    · exact decide_eq_true hkey
    · exact absurd hn hother
  · exact decide_eq_true (hnumber ▸ hn)

theorem key (hw : o.chronicle.watch? n = some w) (hhides : veil.hides w = true) :
    w.assignment.key = veil.key := by
  unfold hides at hhides
  split at hhides
  · exact of_decide_eq_true hhides
  · have hn : veil.connection.resolver = some n := by
      rw [← h.sound.chronicle.numbered n w hw]
      exact of_decide_eq_true hhides
    rcases h.guarded.watches n w hw with ⟨-, -, hkey⟩ | ⟨hother, -⟩
    · exact hkey
    · exact absurd hn hother

theorem watch_spares (hw : o.chronicle.watch? n = some w) (hshown : veil.hides w = false) :
    w.token.Spares veil.marks := by
  rcases h.guarded.watches n w hw with ⟨hn, -⟩ | ⟨-, hspares⟩
  · rw [h.hides_own hw hn] at hshown
    cases hshown
  · exact hspares

theorem janitor_spares : ∀ j ∈ o.connector.exchange.janitors, j.token.Spares veil.marks := by
  intro j hj
  rw [h.orderly.janitors j hj]
  intro mark hmark hmem
  have hthree := (h.guarded.given mark hmem).1
  simp only [List.mem_cons, List.not_mem_nil, or_false] at hmark
  omega

/-- A connection is the hidden one, or has no part in it. -/
theorem own_or_spares (hc : o.connector.connection? name = some c) :
    c.token = veil.connection.token ∧ veil.connection.Same c ∨
      c.token ≠ veil.connection.token ∧ c.token.Spares veil.marks ∧
        ∀ n, c.resolver = some n → veil.connection.resolver ≠ some n := by
  rcases h.guarded.connections name c hc with hsame | ⟨hspares, hresolver⟩
  · exact .inl ⟨hsame.token, hsame⟩
  · refine .inr ⟨fun htoken => ?_, hspares, hresolver⟩
    obtain ⟨mark, hhead, hmark⟩ := h.guarded.token
    rw [htoken] at hspares
    exact hspares mark (List.mem_of_mem_head? hhead) hmark

/-- The outbox of a connection that is shown is shown as well. -/
theorem showsBox (hc : o.connector.connection? name = some c) (hshown : veil.blurs c = false) :
    veil.ShowsBox o.chronicle c.box := by
  intro n w hw hhides hbox
  -- whoever publishes into the outbox of a connection is its own watch
  have hn := (h.orderly.connections name c hc).2.2 n w hw hbox
  have hblurs : veil.blurs c = true := by
    unfold blurs
    split
    · rename_i hwide
      obtain ⟨entry, hentry, rfl⟩ := Office.mem_of_lookup hc
      obtain ⟨w', hw', -, hassignment⟩ := (h.sound.connections entry hentry).watch n hn
      obtain rfl := Option.some.inj (hw.symm.trans hw')
      have hkey := h.key hw hhides
      rw [hassignment] at hkey
      exact decide_eq_true hkey
    · rename_i hnarrow
      have hown : veil.connection.resolver = some n := by
        rw [hides, if_neg hnarrow] at hhides
        rw [← h.sound.chronicle.numbered n w hw]
        exact of_decide_eq_true hhides
      rcases h.own_or_spares hc with ⟨htoken, -⟩ | ⟨-, -, hother⟩
      · exact decide_eq_true htoken
      · exact absurd hown (hother n hn)
  rw [hshown] at hblurs
  cases hblurs

end Covers

namespace Agrees

theorem goOn_hidden (h : veil.Covers config byAuthority o)
    (hhidden : veil.HidesWatch o.chronicle n) (answer : LookupAnswer) :
    veil.Agrees o (o.goOn n answer) := by
  cases hw : o.chronicle.watch? n with
  | none =>
      rw [Office.goOn_none hw]
      exact .refl veil o
  | some w =>
      rw [Office.goOn_eq hw]
      refine .via_self ((alike_aside o.chronicle o.shared.metrics (.only w.assignment.host answer)
        o.shared.lookups o.shared.agenda).trans ?_)
      exact alike_go_hidden (v := o.chronicle.apply fun s =>
        { s with directory := .only w.assignment.host answer }) hhidden
          fun w hw => h.key hw (hhidden w hw)

/-- **A loop goes on alike,** unless it reads what is hidden. -/
theorem goOn (h : veil.Agrees o o') (hcovers : veil.Covers config byAuthority o)
    (hcovers' : veil.Covers config byAuthority o') (n : Nat) (answer : LookupAnswer)
    (hread : ∀ w, o.chronicle.watch? n = some w → veil.hides w = false →
      o.points n = some .taken →
        o'.shared.cache.get? w.assignment.key = o.shared.cache.get? w.assignment.key) :
    veil.Agrees (o.goOn n answer) (o'.goOn n answer) := by
  rcases veil.hides_or_shows o.chronicle n with hhidden | ⟨w, hw, hshown⟩
  · exact h.both (goOn_hidden hcovers hhidden answer)
      (goOn_hidden hcovers' (h.chronicle.hidesWatch hhidden) answer)
  · rw [Office.goOn_eq hw, Office.goOn_eq (h.chronicle.shown hw hshown)]
    have hexpects := h.chronicle.both
      (alike_aside o.chronicle o.shared.metrics (.only w.assignment.host answer)
        o.shared.lookups o.shared.agenda)
      (alike_aside o'.chronicle o'.shared.metrics (.only w.assignment.host answer)
        o'.shared.lookups o'.shared.agenda)
    exact h.via (alike_go hexpects hw hshown (hcovers.watch_spares hw hshown) rfl
      (hread w hw hshown))

theorem sweep (h : veil.Agrees o o') (hcovers : veil.Covers config byAuthority o) (n : Nat) :
    veil.Agrees (o.step (.background (.sweep n))) (o'.step (.background (.sweep n))) :=
  h.via (alike_sweep h.chronicle hcovers.janitor_spares n).1

theorem isDue (h : veil.Agrees o o') (n : Nat) : o'.isDue n = o.isDue n := by
  have hjanitors : o'.connector.exchange.janitors = o.connector.exchange.janitors :=
    h.chronicle.janitors
  have hnow : o'.shared.now = o.shared.now := h.chronicle.now
  unfold Office.isDue
  rw [hjanitors, hnow]

/-! ## A connection in use -/

theorem face_breaker (hface : veil.face c' = veil.face c) (breaker : Breaker) :
    veil.face { c' with breaker } = veil.face { c with breaker } := by
  have hwith (c : Connection) : veil.face { c with breaker } = { veil.face c with
      breaker := if c.token = veil.connection.token then veil.connection.breaker else breaker } :=
    rfl
  rw [hwith, hwith, hface, (told_of_face hface).1.token]

theorem face_updates (hface : veil.face c' = veil.face c) {updates updates' : Receiver}
    (h : veil.blurs c = false → updates' = updates) :
    veil.face { c' with updates := updates' } = veil.face { c with updates } := by
  have hwith (c : Connection) (updates : Receiver) : veil.face { c with updates } =
      { veil.face c with
        updates := if veil.blurs c then veil.connection.updates else updates } := rfl
  obtain ⟨hsame, -, -⟩ := told_of_face hface
  have hblurs : veil.blurs c' = veil.blurs c := by
    unfold blurs
    rw [hsame.target, hsame.token]
  rw [hwith c' updates', hwith c updates, hface, hblurs]
  split
  · rfl
  · rename_i hshown
    rw [h (Bool.eq_false_iff.mpr hshown)]

theorem leave_after (h : veil.Agrees o o') {l l' : Line}
    (hexchange : l.exchange = o.connector.exchange)
    (hexchange' : l'.exchange = o'.connector.exchange)
    (hface : veil.face l'.connection = veil.face l.connection) (breaker : Breaker) (asks : Nat)
    (metrics metrics' : Metrics) :
    veil.Agrees (o.leave name (l.after breaker asks metrics))
      (o'.leave name (l'.after breaker asks metrics')) := by
  rw [Office.leave_eq hexchange, Office.leave_eq hexchange', (told_of_face hface).1.resolver]
  refine (h.via ((alike_refresh h.chronicle l.connection.resolver asks).both ?_ ?_)).update
    (face_breaker hface breaker)
  · exact alike_aside _ _ _ _ _
  · exact alike_aside _ _ _ _ _

/-- The use of the hidden connection does not show. -/
theorem leave_hidden (hcovers : veil.Covers config byAuthority o) {l : Line}
    (hexchange : l.exchange = o.connector.exchange)
    (hc : o.connector.connection? name = some l.connection)
    (hown : l.connection.token = veil.connection.token) (breaker : Breaker) (asks : Nat)
    (metrics : Metrics) : veil.Agrees o (o.leave name (l.after breaker asks metrics)) := by
  rw [Office.leave_eq hexchange]
  have hresolver : l.connection.resolver = veil.connection.resolver := by
    rcases hcovers.own_or_spares hc with ⟨-, hsame⟩ | ⟨hother, -⟩
    · exact hsame.resolver
    · exact absurd hown hother
  have hrefresh : veil.Alike o.chronicle { o.chronicle with
      exchange := o.connector.exchange.refresh l.connection.resolver asks } :=
    alike_refresh_hidden (fun n hn w hw => hcovers.hides_own hw (hresolver ▸ hn)) asks
  refine (via_self (hrefresh.trans (alike_aside _ _ _ _ _))).trans (update_self hc ?_)
  simp only [face, hown, blurs, if_pos]

end Agrees

/-! ## Visits -/

/-- How a visit looks. -/
def visit (veil : Veil) (v : Visit) : String × Token × Option Session :=
  (v.name, v.token, if v.token = veil.connection.token then none else some v.session)

/-- Two bureaus look the same. -/
structure Twins (veil : Veil) (b b' : Bureau) : Prop where
  office : veil.Agrees b.office b'.office
  visits : b'.visits.map veil.visit = b.visits.map veil.visit

theorem told_of_visit {v v' : Visit} (h : veil.visit v' = veil.visit v) :
    v'.name = v.name ∧ v'.token = v.token ∧ (v.token ≠ veil.connection.token → v' = v) := by
  obtain ⟨hname, hrest⟩ := Prod.mk.inj h
  obtain ⟨htoken, hsession⟩ := Prod.mk.inj hrest
  refine ⟨hname, htoken, fun hother => ?_⟩
  rw [htoken, if_neg hother, if_neg hother] at hsession
  obtain ⟨name, token, session⟩ := v'
  simp only at hname htoken hsession
  rw [hname, htoken, Option.some.inj hsession]

namespace Twins

variable {b b' b'' : Bureau} {i : Nat} {v v' : Visit}

theorem refl (veil : Veil) (b : Bureau) : veil.Twins b b :=
  ⟨.refl veil _, rfl⟩

theorem symm (h : veil.Twins b b') : veil.Twins b' b :=
  ⟨h.office.symm, h.visits.symm⟩

theorem trans (h : veil.Twins b b') (h' : veil.Twins b' b'') : veil.Twins b b'' :=
  ⟨h.office.trans h'.office, h'.visits.trans h.visits⟩

theorem find (h : veil.Twins b b') (hv : b.visits[i]? = some v) :
    ∃ v', b'.visits[i]? = some v' ∧ veil.visit v' = veil.visit v := by
  have hsame := congrArg (·[i]?) h.visits
  simp only [List.getElem?_map] at hsame
  rw [hv, Option.map_some] at hsame
  exact Option.map_eq_some_iff.mp hsame

theorem missing (h : veil.Twins b b') (hv : b.visits[i]? = none) : b'.visits[i]? = none := by
  have hsame := congrArg (·[i]?) h.visits
  simp only [List.getElem?_map] at hsame
  rwa [hv, Option.map_none, Option.map_eq_none_iff] at hsame

/-- Two visits that look the same are on connections that look the same, if those are there. -/
theorem host (h : veil.Twins b b') (hseen : veil.visit v' = veil.visit v) {c : Connection}
    (hhost : b.host? v = some c) : ∃ c', b'.host? v' = some c' ∧ veil.face c' = veil.face c := by
  obtain ⟨hname, htoken, -⟩ := told_of_visit hseen
  obtain ⟨hc, hsame⟩ := Bureau.host?_eq_some.mp hhost
  obtain ⟨c', hc', hface⟩ := h.office.find hc
  refine ⟨c', Bureau.host?_eq_some.mpr ⟨?_, ?_⟩, hface⟩
  · rw [hname]
    exact hc'
  · rw [htoken, (told_of_face hface).1.token, hsame]

/-- What a visit does to the hidden connection does not show. -/
theorem use_hidden (hcovers : veil.Covers config byAuthority b.office)
    {f : Session → Line → Session × Line} (hf : Bureau.Steady f) (draw : Float)
    (hhidden : ∀ v, b.visits[i]? = some v → v.token = veil.connection.token) :
    veil.Twins b (b.use i draw f) := by
  rcases hf.use_cases b i draw with
    hsame | ⟨v, c, session, breaker, asks, metrics, hv, hhost, huse⟩
  · rw [hsame]
    exact .refl veil b
  · rw [huse]
    obtain ⟨hc, htoken⟩ := Bureau.host?_eq_some.mp hhost
    refine ⟨Agrees.leave_hidden hcovers (l := b.line draw c) rfl hc
      (htoken.trans (hhidden v hv)) breaker asks metrics, ?_⟩
    have hsame : veil.visit { v with session } = veil.visit v := by
      simp only [visit, hhidden v hv, if_pos]
    rw [List.map_set, hsame]
    obtain ⟨hlt, hat⟩ := List.getElem?_eq_some_iff.mp hv
    rw [← hat, ← List.getElem_map veil.visit (h := by rwa [List.length_map]),
      List.set_getElem_self]

/-- **A visit goes on alike.** -/
theorem use (h : veil.Twins b b') (hcovers : veil.Covers config byAuthority b.office)
    (hcovers' : veil.Covers config byAuthority b'.office)
    {f : Session → Line → Session × Line} (hf : Bureau.Steady f) (i : Nat) (draw : Float) :
    veil.Twins (b.use i draw f) (b'.use i draw f) := by
  by_cases hhidden : ∀ v, b.visits[i]? = some v → v.token = veil.connection.token
  · refine (use_hidden hcovers hf draw hhidden).symm.trans (h.trans ?_)
    refine use_hidden hcovers' hf draw fun v' hv' => ?_
    obtain ⟨v, hv, hseen⟩ := h.symm.find hv'
    rw [← (told_of_visit hseen).2.1]
    exact hhidden v hv
  -- on another connection the lines of the two runs are alike, and are left alike
  obtain ⟨v, hv⟩ := Classical.not_forall.mp hhidden
  obtain ⟨hv, hother⟩ := Classical.not_imp.mp hv
  obtain ⟨v', hv', hseen⟩ := h.find hv
  obtain rfl := (told_of_visit hseen).2.2 hother
  unfold Bureau.use
  rw [hv, hv']
  dsimp only
  cases hhost : b.host? v' with
  | none =>
      have hnone : b'.host? v' = none := by
        cases hhost' : b'.host? v' with
        | none => rfl
        | some c' =>
            obtain ⟨c, hc, -⟩ := h.symm.host rfl hhost'
            rw [hhost] at hc
            cases hc
      rw [hnone]
      exact h
  | some c =>
      obtain ⟨c', hhost', hface⟩ := h.host rfl hhost
      rw [hhost']
      dsimp only
      split
      · exact h
      · obtain ⟨hc, htoken⟩ := Bureau.host?_eq_some.mp hhost
        obtain ⟨hsame, hbreaker, -⟩ := told_of_face hface
        rw [← htoken] at hother
        rcases hcovers.own_or_spares hc with ⟨hown, -⟩ | ⟨-, hspares, -⟩
        · exact absurd hown hother
        have hlike : (b.line draw c).Like (b'.line draw c') := by
          refine Bureau.line_like h.office.config h.office.chronicle.now (hbreaker hother) ?_ draw
          rw [hsame.token]
          exact h.office.chronicle.isCancelled hspares
        have hresult := hf.result hlike v'.session
        have hused := hf.used hlike v'.session
        generalize f v'.session (b.line draw c) = made at hresult hused ⊢
        generalize f v'.session (b'.line draw c') = made' at hresult hused ⊢
        obtain ⟨session, l⟩ := made
        obtain ⟨session', l'⟩ := made'
        obtain ⟨breaker, asks, metrics, metrics'⟩ := hused
        dsimp only at hresult ⊢
        subst hresult
        refine ⟨h.office.leave_after rfl rfl hface breaker asks metrics metrics', ?_⟩
        rw [List.map_set, List.map_set, h.visits]

theorem observe (h : veil.Twins b b') (hcovers : veil.Covers config byAuthority b.office)
    (hcovers' : veil.Covers config byAuthority b'.office) (name : String) :
    veil.Twins (b.step (.observe name)) (b'.step (.observe name)) := by
  refine ⟨h.office.withConnection name
    (f := fun c connection => (c.observe name connection).1) fun c c' hface hc hc' => ?_, h.visits⟩
  obtain ⟨metrics, hobserve⟩ := (b.office.connector.line c).observe_eq
  obtain ⟨metrics', hobserve'⟩ := (b'.office.connector.line c').observe_eq
  show veil.Agrees (b.office.leave name (b.office.connector.line c).observe.1)
    (b'.office.leave name (b'.office.connector.line c').observe.1)
  rw [hobserve, hobserve']
  obtain ⟨hsame, hbreaker, -⟩ := told_of_face hface
  by_cases hown : c.token = veil.connection.token
  · exact h.office.both
      (Agrees.leave_hidden hcovers (l := b.office.connector.line c) rfl hc hown _ 0 metrics)
      (Agrees.leave_hidden hcovers' (l := b'.office.connector.line c') rfl hc'
        (hsame.token.trans hown) _ 0 metrics')
  · have hstate : (b'.office.connector.line c').breaker = (b.office.connector.line c).breaker :=
      hbreaker hown
    have hnow : (b'.office.connector.line c').now = (b.office.connector.line c).now :=
      h.office.chronicle.now
    rw [hstate, hnow]
    exact h.office.leave_after (l := b.office.connector.line c) rfl rfl hface _ 0 metrics metrics'

theorem read (h : veil.Twins b b') (hcovers : veil.Covers config byAuthority b.office)
    (name : String) : veil.Twins (b.step (.read name)) (b'.step (.read name)) := by
  refine ⟨h.office.withConnection name (f := fun c connection =>
    c.update name { connection with
      updates := ((c.exchange.shared.box connection.box).read connection.updates).2 })
    fun c c' hface hc hc' => ?_, h.visits⟩
  refine h.office.update (Agrees.face_updates hface fun hshown => ?_)
  have hbox : b'.office.connector.exchange.shared.box c.box =
      b.office.connector.exchange.shared.box c.box :=
    h.office.chronicle.boxes c.box (hcovers.showsBox hc hshown)
  rw [(told_of_face hface).1.box, hbox]
  rfl

theorem place (h : veil.Twins b b') (name : String) (operation : Operation) :
    veil.Twins (b.step (.place name operation)) (b'.step (.place name operation)) := by
  simp only [Bureau.step]
  have hfind {b : Bureau} :
      b.connector.connection? name = b.office.connector.connection? name := rfl
  rw [hfind, hfind]
  cases hc : b.office.connector.connection? name with
  | none =>
      rw [h.office.missing hc]
      exact h
  | some c =>
      obtain ⟨c', hc', hface⟩ := h.office.find hc
      obtain ⟨hsame, -, -⟩ := told_of_face hface
      rw [hc']
      refine ⟨h.office, ?_⟩
      dsimp only
      rw [List.map_append, List.map_append, h.visits, hsame.token, hsame.policy]

/-- **Whatever happens at two bureaus that look the same, they look the same afterwards,** unless a
loop reads what is hidden. -/
theorem step (h : veil.Twins b b') (hcovers : veil.Covers config byAuthority b.office)
    (hcovers' : veil.Covers config byAuthority b'.office) (a : Affair)
    (hread : ∀ n answer w, a = .goOn n answer → b.office.chronicle.watch? n = some w →
      veil.hides w = false → b.office.points n = some .taken →
        b'.shared.cache.get? w.assignment.key = b.shared.cache.get? w.assignment.key) :
    veil.Twins (b.step a) (b'.step a) := by
  cases a with
  | order e =>
      simp only [Bureau.step]
      split
      · rename_i horder
        refine ⟨h.office.order (fun entry hentry options hdns => ?_) horder, h.visits⟩
        rw [hcovers.sound.builders entry hentry options hdns]
        rfl
      · exact h
  | stop => exact ⟨h.office.stop, h.visits⟩
  | join i => exact ⟨h.office, h.visits⟩
  | goOn n answer =>
      exact ⟨h.office.goOn hcovers hcovers' n answer fun w => hread n answer w rfl, h.visits⟩
  | sweep n => exact ⟨h.office.sweep hcovers n, h.visits⟩
  | overrun n =>
      simp only [Bureau.step, h.office.isDue n]
      split
      · exact ⟨h.office.via (alike_clear h.office.chronicle), h.visits⟩
      · exact h
  | clear => exact ⟨h.office.via (alike_clear h.office.chronicle), h.visits⟩
  | elapse now => exact ⟨h.office.via (alike_jump h.office.chronicle now), h.visits⟩
  | observe name => exact h.observe hcovers hcovers' name
  | read name => exact h.read hcovers name
  | place name operation => exact h.place name operation
  | call i draw => exact h.use hcovers hcovers' Bureau.steady_goOn i draw
  | hangUp i => exact h.use hcovers hcovers' Bureau.steady_hangUp i 0

/-- A connection that is closed is hidden, and so is all that closing it does. -/
theorem close (hcovers : veil.Covers config byAuthority b.office) {name : String}
    (hc : b.office.connector.connection? name = some veil.connection) :
    veil.Twins b (b.step (.order (.close name))) := by
  refine ⟨?_, rfl⟩
  have hcancel : veil.Alike b.office.chronicle
      (b.office.chronicle.step (.cancel veil.connection.token)) := by
    obtain ⟨mark, hhead, hmark⟩ := hcovers.guarded.token
    refine alike_cancel_hidden fun other hother => ?_
    rwa [← Option.some.inj (hhead.symm.trans hother)]
  have hstep : (b.step (.order (.close name))).office =
      b.office.withChronicle { b.office.chronicle with
        exchange := (b.office.connector.exchange.cancel veil.connection.token).close
          veil.connection.resolver } := by
    simp only [Bureau.step, Errand.isOrder, if_pos, Bureau.via, Office.step,
      Office.withConnection, hc]
    rfl
  rw [hstep]
  refine .via_self (hcancel.trans ?_)
  cases hresolver : veil.connection.resolver with
  | none => exact .refl veil _
  | some n =>
      refine alike_close_hidden (v := b.office.chronicle.step (.cancel veil.connection.token))
        fun w' hw' other hother => ?_
      obtain ⟨w, hw, hseen⟩ := hcancel.find' hw'
      rw [(told_of_watch hseen).2.2.1] at hother
      rcases hcovers.guarded.watches n w hw with ⟨-, ⟨mark, hhead, hmark⟩, -⟩ | ⟨hnot, -⟩
      · rwa [← Option.some.inj (hhead.symm.trans hother)]
      · exact absurd hresolver hnot

end Twins

end Veil

end Dialer
