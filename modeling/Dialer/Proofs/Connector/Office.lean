import Dialer.Connector
import Dialer.Proofs.Config.Validation
import Dialer.Proofs.Resolver.Soundness

/-!
# A connector in all that may be done with it

An office is a connector together with the points at which the loops of its connections stand, and
the journal of what they did. Errands are run one at a time: connections are made, dropped, closed,
refreshed and used, builders are registered, and in between the background goes on step by step.

All of it is seen in the chronicle of the connector's exchange: an errand is a number of occurrences
there (`errand_reaches`), and these are of few kinds (`Serves`). Watches are made for parsed targets
and with the options of the connector, nobody else writes the cache, and as long as nothing disturbs
the connector no timer is passed by and the tokens made at first are not cancelled.
-/

namespace Dialer

open Resolver

/-- A connector at work. -/
structure Office where
  connector : Connector
  points : Nat → Option Point
  journal : Journal

/-- What may be done with a connector, or goes on behind it. -/
inductive Errand where
  | connect (name raw : String)
  | drop (name : String)
  | close (name : String)
  | refresh (name : String)
  | stop
  /-- A builder is registered that publishes a fixed set, or complains. -/
  | register (scheme : String) (addresses : List Address) (complaint : Option String)
  /-- Calls leave a connection with another breaker, or it has read its news. -/
  | use (name : String) (breaker : Breaker) (updates : Receiver)
  | background (o : Occurrence)

/-- Watches and janitors go on, the cache is cleared, time passes, or something else changes the
metrics and the backends. -/
def Resolver.Occurrence.isBackground : Occurrence → Bool
  | .go _ | .sweep _ | .clear | .pass _ | .jump _ | .retire | .elsewhere _ _ => true
  | _ => false

/-- Something is done at once, and nothing goes on by itself. -/
def Resolver.Occurrence.isAct : Occurrence → Bool
  | .request _ | .close _ | .cancel _ | .watch _ _ | .mint _ | .box | .publish _ _
  | .elsewhere _ _ => true
  | _ => false

/-- The connector is stopped, or the clock passes a timer by. -/
def Errand.disturbs : Errand → Bool
  | .stop | .background (.jump _) => true
  | _ => false

/-- What all watches of a connector are made with. -/
def Connector.options (config : Config) (byAuthority : Bool) : LookupOptions :=
  ⟨config.resolver.lookupTimeout, byAuthority, some ⟨[2, 0]⟩⟩

namespace Office

/-- A connector that has just been made. -/
def start (config : Config) (directory : Directory) (byAuthority : Bool) (draw : Nat → Float) :
    Office :=
  ⟨.equip config byAuthority draw (.start directory), fun _ => none, []⟩

def chronicle (o : Office) : Chronicle :=
  ⟨o.connector.exchange, o.points, o.journal⟩

def shared (o : Office) : Shared :=
  o.connector.exchange.shared

/-- The background goes on. -/
def withChronicle (o : Office) (v : Chronicle) : Office :=
  ⟨{ o.connector with exchange := v.exchange }, v.points, v.journal⟩

/-- Does something with a connection, if there is one of this name. -/
def withConnection (o : Office) (name : String) (f : Connector → Connection → Connector) : Office :=
  match o.connector.connection? name with
  | some connection => { o with connector := f o.connector connection }
  | none => o

def step (o : Office) : Errand → Office
  | .connect name raw =>
    match o.connector.connect name raw with
    | .ok connector => { o with connector }
    | .error _ => o
  | .drop name => { o with connector := o.connector.drop name }
  | .close name => o.withConnection name fun c connection => c.close connection
  | .refresh name => o.withConnection name fun c connection => c.refresh connection 1
  | .stop => { o with connector := o.connector.stop }
  | .register scheme addresses complaint =>
    { o with connector := o.connector.register (.fixed scheme addresses complaint) }
  | .use name breaker updates => o.withConnection name fun c connection =>
    c.update name { connection with breaker, updates }
  | .background occurrence =>
    if occurrence.isBackground then o.withChronicle (o.chronicle.step occurrence) else o

def run (errands : List Errand) (o : Office) : Office :=
  errands.foldl step o

theorem run_append (first second : List Errand) (o : Office) :
    run (first ++ second) o = run second (run first o) :=
  List.foldl_append

end Office

/-! ## What an errand comes to -/

namespace Office

open Chronicle

/-- The occurrences that errands come to. -/
def Serves (config : Config) (byAuthority disturbed : Bool) : Occurrence → Prop
  | .watch options target => options = Connector.options config byAuthority ∧
    ∃ raw, Target.parse raw config.resolver.ports = .ok target
  | .cancel token => disturbed = true ∨ ∃ mark ∈ token.lineage.head?, 3 ≤ mark
  | .jump _ => disturbed = true
  | .put _ _ => False
  | _ => True

/-- The occurrences that errands in the foreground come to. -/
def Deals (config : Config) (byAuthority disturbed : Bool) (o : Occurrence) : Prop :=
  Serves config byAuthority disturbed o ∧ o.isAct = true

/-- What a connection is to the exchange. -/
structure Stands (config : Config) (byAuthority : Bool) (v : Chronicle) (c : Connection) :
    Prop where
  token : ∃ mark ∈ c.token.lineage.head?, 3 ≤ mark
  target : ∃ raw, Target.parse raw config.resolver.ports = .ok c.target
  watch : ∀ n, c.resolver = some n → ∃ w, v.watch? n = some w ∧ w.box = c.box ∧
    w.assignment = (Connector.options config byAuthority).assignment c.target

/-- What holds at any time. -/
structure Sound (config : Config) (byAuthority : Bool) (o : Office) : Prop where
  configured : o.connector.config = config
  origin : o.connector.shutdown.origin = ⟨[0]⟩
  chronicle : o.chronicle.Sound
  marks : 3 ≤ o.shared.tokens.next
  builders : ∀ entry ∈ o.connector.registry.builders, ∀ options, entry.2 = .dns options →
    options = Connector.options config byAuthority
  connections : ∀ entry ∈ o.connector.connections,
    Stands config byAuthority o.chronicle entry.2

variable {config : Config} {byAuthority disturbed : Bool} {o : Office}

/-- A connector is made by four occurrences: a root token, two tokens below it, and a janitor. -/
def opening (config : Config) : List Occurrence :=
  [.mint none, .mint (some ⟨[0]⟩), .mint (some ⟨[0]⟩),
    .janitor config.resolver.cacheClearInterval ⟨[1, 0]⟩]

theorem start_chronicle (config : Config) (directory : Directory) (byAuthority : Bool)
    (draw : Nat → Float) :
    (start config directory byAuthority draw).chronicle =
      Chronicle.run (opening config) (.start directory) :=
  rfl

theorem stands_reaches {v v' : Chronicle} {c : Connection} (hsound : v.Sound)
    {allowed : Occurrence → Prop} (hreaches : Reaches allowed v v')
    (h : Stands config byAuthority v c) : Stands config byAuthority v' c := by
  obtain ⟨occurrences, -, rfl⟩ := hreaches
  refine ⟨h.token, h.target, fun n hn => ?_⟩
  obtain ⟨w, hwatch, hbox, hassignment⟩ := h.watch n hn
  obtain ⟨w', hwatch', hassignment', -, hbox'⟩ := watch_run hsound hwatch occurrences
  exact ⟨w', hwatch', hbox'.trans hbox, hassignment'.trans hassignment⟩

theorem marks_step {v : Chronicle} (hsound : v.Sound) (o : Occurrence) :
    v.shared.tokens.next ≤ (v.step o).shared.tokens.next := by
  have htakes := v.step_takes o hsound.within
  generalize v.step o = v' at htakes ⊢
  cases htakes with
  | acts n w deeds l shared ho hwatch hfree hacts htold =>
      have hsame : (v.carry n w.assignment deeds l shared).shared.tokens = v.shared.tokens :=
        htold.tokens
      exact Nat.le_of_eq (congrArg Cancellations.next hsame.symm)
  | alters => exact Nat.le_refl _
  | begins => exact Nat.le_succ _
  | aside _ haside => exact haside.marks

theorem marks_reaches {v v' : Chronicle} (hsound : v.Sound) {allowed : Occurrence → Prop}
    (hreaches : Reaches allowed v v') : v.shared.tokens.next ≤ v'.shared.tokens.next := by
  obtain ⟨occurrences, hallowed, rfl⟩ := hreaches
  exact run_keeps (P := fun v' => v.shared.tokens.next ≤ v'.shared.tokens.next) allowed
    (fun v' o hsound' _ hle => Nat.le_trans hle (marks_step hsound' o)) hsound hallowed
    (Nat.le_refl _)

theorem sound_reaches {v v' : Chronicle} (hsound : v.Sound) {allowed : Occurrence → Prop}
    (hreaches : Reaches allowed v v') : v'.Sound := by
  obtain ⟨occurrences, -, rfl⟩ := hreaches
  exact sound_run hsound occurrences

/-- Someone who is no watch publishes into an outbox of their own. -/
theorem offer_reaches {v : Chronicle} (hsound : v.Sound) (metrics : Metrics)
    (addresses : List Address) :
    Reaches (Deals config byAuthority disturbed) v (v.apply fun s =>
      { s.openBox.2 with metrics }.publish s.openBox.1 addresses) := by
  refine ⟨[.box, .elsewhere metrics v.shared.directory,
    .publish v.shared.outboxes.length addresses], ?_, run_offer hsound metrics addresses⟩
  simp [Deals, Serves, Occurrence.isAct]

/-- What a builder publishes at once. -/
def offered (t : Target) : Builder → List (List Address)
  | .passthrough => [[⟨t.endpoint⟩]]
  | .dns _ => (t.literalAddress?.map ([·])).toList
  | .fixed _ addresses _ => [addresses]

/-- A resolver publishes one set at once and is no watch, or it is a watch and publishes nothing
yet. -/
theorem build_cases {x x' : Exchange} {b : Builder} {t : Target} {box : Nat} {resolver : Handle}
    (hbuild : x.build b t box = .ok (resolver, x')) :
    (resolver = none ∧ ∃ metrics addresses, offered t b = [addresses] ∧
      x' = x.apply fun s => { s with metrics }.publish box addresses) ∨
    ∃ options, b = .dns options ∧ offered t b = [] ∧
      x.watchTarget options t box = (resolver, x') := by
  cases b with
  | passthrough =>
      obtain ⟨rfl, rfl⟩ := Prod.mk.inj (Except.ok.inj hbuild)
      exact .inl ⟨rfl, _, _, rfl, rfl⟩
  | fixed scheme addresses complaint =>
      cases complaint with
      | some complaint => cases hbuild
      | none =>
          obtain ⟨rfl, rfl⟩ := Prod.mk.inj (Except.ok.inj hbuild)
          exact .inl ⟨rfl, x.shared.metrics, _, rfl, rfl⟩
  | dns options =>
      simp only [Exchange.build] at hbuild
      cases hliteral : t.literalAddress? with
      | some address =>
          rw [hliteral] at hbuild
          obtain ⟨rfl, rfl⟩ := Prod.mk.inj (Except.ok.inj hbuild)
          exact .inl ⟨rfl, _, [address], by rw [offered, hliteral]; rfl, rfl⟩
      | none =>
          rw [hliteral] at hbuild
          exact .inr ⟨options, rfl, by rw [offered, hliteral]; rfl, Except.ok.inj hbuild⟩

/-- Building a resolver comes to a few occurrences. -/
theorem build_reaches (disturbed : Bool) {v : Chronicle} (hsound : v.Sound) {b : Builder}
    {t : Target}
    (hbuilder : ∀ options, b = .dns options → options = Connector.options config byAuthority)
    (htarget : ∃ raw, Target.parse raw config.resolver.ports = .ok t) {resolver : Handle}
    {x : Exchange} (hbuild : { v.exchange with shared := v.shared.openBox.2 }.build b t
      v.shared.openBox.1 = .ok (resolver, x)) :
    Reaches (Deals config byAuthority disturbed) v { v with exchange := x } ∧
      ∀ n, resolver = some n → ∃ w, { v with exchange := x }.watch? n = some w ∧
        w.box = v.shared.openBox.1 ∧
        w.assignment = (Connector.options config byAuthority).assignment t := by
  obtain ⟨rfl, metrics, addresses, -, rfl⟩ | ⟨options, hdns, -, hmade⟩ := build_cases hbuild
  · exact ⟨offer_reaches hsound metrics addresses, fun n hn => by cases hn⟩
  · obtain rfl := hbuilder options hdns
    refine ⟨.step (o := .watch (Connector.options config byAuthority) t)
      ⟨⟨rfl, htarget⟩, rfl⟩ ?_, ?_⟩
    · exact congrArg (fun made : Handle × Exchange => { v with exchange := made.2 }) hmade
    · rw [watchTarget_eq] at hmade
      obtain ⟨rfl, rfl⟩ := Prod.mk.inj hmade
      intro n hn
      obtain rfl := Option.some.inj hn
      exact ⟨_, List.getElem?_concat_length, rfl, rfl⟩

theorem ok_of_bind {ε α β : Type} {x : Except ε α} {f : α → Except ε β} {r : β}
    (h : x >>= f = .ok r) : ∃ a, x = .ok a ∧ f a = .ok r := by
  cases x with
  | error e => cases h
  | ok a => exact ⟨a, rfl, h⟩

theorem ok_of_mapError {ε ε' α : Type} {x : Except ε α} {f : ε → ε'} {a : α}
    (h : x.mapError f = .ok a) : x = .ok a := by
  cases x with
  | error e => cases h
  | ok b => exact congrArg Except.ok (Except.ok.inj h)

/-- Making a connection comes to what building its resolver comes to, and a token. -/
theorem establish_reaches (disturbed : Bool) (h : o.Sound config byAuthority) {raw text : String}
    {t : Target} {b : Builder} {policy : RetryPolicy} {c : Connection} {connector : Connector}
    (hbuilder : ∀ options, b = .dns options → options = Connector.options config byAuthority)
    (htarget : Target.parse text config.resolver.ports = .ok t)
    (hmade : o.connector.establish raw t b policy = .ok (c, connector)) :
    connector = { o.connector with exchange := connector.exchange } ∧
      Reaches (Deals config byAuthority disturbed) o.chronicle
        { o.chronicle with exchange := connector.exchange } ∧
      Stands config byAuthority { o.chronicle with exchange := connector.exchange } c := by
  unfold Connector.establish at hmade
  obtain ⟨⟨resolver, x⟩, hbuild, hmade⟩ := ok_of_bind hmade
  obtain ⟨rfl, rfl⟩ := Prod.mk.inj (Except.ok.inj hmade)
  obtain ⟨hreaches, hwatch⟩ := build_reaches disturbed (v := o.chronicle) h.chronicle hbuilder
    ⟨text, htarget⟩ hbuild
  have hmint : Reaches (Deals config byAuthority disturbed) { o.chronicle with exchange := x }
      { o.chronicle with exchange := (x.childToken o.connector.shutdown.origin).2 } :=
    .step (o := .mint (some o.connector.shutdown.origin)) ⟨trivial, rfl⟩ rfl
  refine ⟨rfl, hreaches.trans hmint, ?_, ⟨text, htarget⟩, hwatch⟩
  exact ⟨x.shared.tokens.next, rfl, Nat.le_trans h.marks (marks_reaches h.chronicle hreaches)⟩

theorem connect_cases {c c' : Connector} {name raw : String} (h : c.connect name raw = .ok c') :
    ∃ t b policy connection made, Target.parse raw c.config.resolver.ports = .ok t ∧
      c.registry.get? t.scheme = some b ∧
      c.establish raw t b policy = .ok (connection, made) ∧
      c' = { made.drop name with
        connections := (made.drop name).connections ++ [(name, connection)] } := by
  unfold Connector.connect at h
  obtain ⟨t, hparse, h⟩ := ok_of_bind h
  split at h
  · cases h
  · rename_i b hbuilder
    obtain ⟨policy, -, h⟩ := ok_of_bind h
    obtain ⟨⟨connection, made⟩, hmade, h⟩ := ok_of_bind h
    exact ⟨t, b, policy, connection, made, ok_of_mapError hparse, hbuilder, hmade,
      (Except.ok.inj h).symm⟩

theorem close_reaches (v : Chronicle) (r : Handle) :
    Reaches (Deals config byAuthority disturbed) v { v with exchange := v.exchange.close r } := by
  cases r with
  | none => exact .refl _ v
  | some n => exact .step (o := .close n) ⟨trivial, rfl⟩ rfl

theorem drop_reaches (config : Config) (byAuthority disturbed : Bool) (c : Connector)
    (name : String) (points : Nat → Option Point) (journal : Journal) :
    Reaches (Deals config byAuthority disturbed) ⟨c.exchange, points, journal⟩
        ⟨(c.drop name).exchange, points, journal⟩ ∧
      (c.drop name).config = c.config ∧ (c.drop name).shutdown = c.shutdown ∧
      (c.drop name).registry = c.registry ∧
      ∀ entry ∈ (c.drop name).connections, entry ∈ c.connections := by
  unfold Connector.drop
  cases c.connection? name with
  | none => exact ⟨.refl _ _, rfl, rfl, rfl, fun _ h => h⟩
  | some connection =>
      exact ⟨close_reaches ⟨c.exchange, points, journal⟩ connection.resolver, rfl, rfl, rfl,
        fun _ h => (List.mem_filter.mp h).1⟩

theorem mem_of_lookup {α : Type} {entries : List (String × α)} {key : String} {value : α}
    (h : entries.lookup key = some value) : ∃ entry ∈ entries, entry.2 = value := by
  obtain ⟨before, behind, rfl, -⟩ := List.lookup_eq_some_iff.mp h
  exact ⟨(key, value), List.mem_append_right _ List.mem_cons_self, rfl⟩

/-- What is left once a name has been taken out. -/
theorem lookup_filter {α : Type} (entries : List (String × α)) (name other : String) :
    (entries.filter (·.1 != name)).lookup other =
      if other = name then none else entries.lookup other := by
  induction entries with
  | nil => split <;> rfl
  | cons entry rest ih =>
      obtain ⟨key, value⟩ := entry
      by_cases hkey : key = name
      · subst hkey
        rw [List.filter_cons_of_neg (by simp), ih, List.lookup_cons]
        by_cases hother : other = key
        · rw [if_pos hother, if_pos hother]
        · rw [if_neg hother, if_neg hother, beq_false_of_ne hother]
      · rw [List.filter_cons_of_pos (by simpa using hkey), List.lookup_cons, List.lookup_cons, ih]
        by_cases hother : other = key
        · subst hother
          rw [if_neg hkey, if_neg hkey, beq_self_eq_true]
        · rw [beq_false_of_ne hother]

theorem mem_register {r : Registry} {b : Builder} {entry : String × Builder}
    (h : entry ∈ (r.register b).builders) : entry.2 = b ∨ entry ∈ r.builders := by
  rcases List.mem_cons.mp h with rfl | hold
  · exact .inl rfl
  · exact .inr (List.mem_filter.mp hold).1

/-- A registered builder that watches does so with the options of the connector. -/
theorem Sound.builder (h : o.Sound config byAuthority) {scheme : String} {b : Builder}
    (hget : o.connector.registry.get? scheme = some b) :
    ∀ options, b = .dns options → options = Connector.options config byAuthority := by
  intro options hdns
  obtain ⟨entry, hentry, rfl⟩ := mem_of_lookup hget
  exact h.builders entry hentry options hdns

/-- What keeps an office sound. -/
theorem sound_of_reaches (h : o.Sound config byAuthority) {o' : Office}
    {allowed : Occurrence → Prop} (hreaches : Reaches allowed o.chronicle o'.chronicle)
    (hconfig : o'.connector.config = o.connector.config)
    (hshutdown : o'.connector.shutdown = o.connector.shutdown)
    (hregistry : ∀ entry ∈ o'.connector.registry.builders,
      entry ∈ o.connector.registry.builders ∨ ∀ options, entry.2 ≠ .dns options)
    (hconnections : ∀ entry ∈ o'.connector.connections,
      Stands config byAuthority o.chronicle entry.2 ∨
        Stands config byAuthority o'.chronicle entry.2) : o'.Sound config byAuthority where
  configured := hconfig.trans h.configured
  origin := by rw [hshutdown, h.origin]
  chronicle := sound_reaches h.chronicle hreaches
  marks := Nat.le_trans h.marks (marks_reaches h.chronicle hreaches)
  builders := by
    intro entry hentry options hdns
    rcases hregistry entry hentry with hold | hother
    · exact h.builders entry hold options hdns
    · exact absurd hdns (hother options)
  connections := by
    intro entry hentry
    rcases hconnections entry hentry with hold | hnew
    · exact stands_reaches h.chronicle hreaches hold
    · exact hnew

theorem connect_sound (h : o.Sound config byAuthority) (name raw : String) :
    (o.step (.connect name raw)).Sound config byAuthority ∧
      Reaches (Deals config byAuthority disturbed) o.chronicle
        (o.step (.connect name raw)).chronicle := by
  cases hconnect : o.connector.connect name raw with
  | error e =>
      have hsame : o.step (.connect name raw) = o := by simp only [step, hconnect]
      rw [hsame]
      exact ⟨h, .refl _ _⟩
  | ok c =>
      have hmade : o.step (.connect name raw) = { o with connector := c } := by
        simp only [step, hconnect]
      rw [hmade]
      obtain ⟨t, b, policy, connection, made, hparse, hget, hestablish, rfl⟩ :=
        connect_cases hconnect
      have hbuilder := h.builder hget
      rw [h.configured] at hparse
      obtain ⟨hsame, hreaches, hstands⟩ :=
        establish_reaches disturbed h hbuilder hparse hestablish
      -- only when the new connection is there, an older one of this name is dropped
      obtain ⟨hdrop, hconfig, hshutdown, hregistry, hkept⟩ :=
        drop_reaches config byAuthority disturbed made name o.points o.journal
      have hall := hreaches.trans hdrop
      refine ⟨sound_of_reaches h hall ?_ ?_ ?_ ?_, hall⟩
      · exact hconfig.trans (by rw [hsame])
      · exact hshutdown.trans (by rw [hsame])
      · intro entry hentry
        refine .inl ?_
        have hbuilders : (made.drop name).registry = o.connector.registry := by
          rw [hregistry, hsame]
        rw [← hbuilders]
        exact hentry
      · intro entry hentry
        rcases List.mem_append.mp hentry with hold | hnew
        · refine .inl (h.connections entry ?_)
          have hbefore := hkept entry hold
          rw [hsame] at hbefore
          exact hbefore
        · refine .inr ?_
          rw [List.mem_singleton.mp hnew]
          exact stands_reaches (sound_reaches h.chronicle hreaches) hdrop hstands

theorem withConnection_cases (o : Office) (name : String)
    (f : Connector → Connection → Connector) :
    o.withConnection name f = o ∨ ∃ entry ∈ o.connector.connections,
      o.withConnection name f = { o with connector := f o.connector entry.2 } := by
  unfold withConnection
  cases hfound : o.connector.connection? name with
  | none => exact .inl rfl
  | some connection =>
      obtain ⟨entry, hentry, rfl⟩ := mem_of_lookup hfound
      exact .inr ⟨entry, hentry, rfl⟩

theorem sound_of_exchange (h : o.Sound config byAuthority) {x : Exchange}
    {allowed : Occurrence → Prop}
    (hreaches : Reaches allowed o.chronicle { o.chronicle with exchange := x }) :
    Sound config byAuthority { o with connector := { o.connector with exchange := x } } :=
  sound_of_reaches h hreaches rfl rfl (fun _ hentry => .inl hentry)
    fun entry hentry => .inl (h.connections entry hentry)

theorem drop_sound (h : o.Sound config byAuthority) (name : String) :
    (o.step (.drop name)).Sound config byAuthority ∧
      Reaches (Deals config byAuthority disturbed) o.chronicle (o.step (.drop name)).chronicle := by
  obtain ⟨hdrop, hconfig, hshutdown, hregistry, hkept⟩ :=
    drop_reaches config byAuthority disturbed o.connector name o.points o.journal
  refine ⟨sound_of_reaches h hdrop hconfig hshutdown ?_ ?_, hdrop⟩
  · intro entry hentry
    rw [← hregistry]
    exact .inl hentry
  · exact fun entry hentry => .inl (h.connections entry (hkept entry hentry))

theorem close_sound (h : o.Sound config byAuthority) (name : String) :
    (o.step (.close name)).Sound config byAuthority ∧
      Reaches (Deals config byAuthority disturbed) o.chronicle
        (o.step (.close name)).chronicle := by
  rcases o.withConnection_cases name fun c connection => c.close connection with
    hsame | ⟨entry, hentry, hdone⟩
  · rw [step, hsame]
    exact ⟨h, .refl _ _⟩
  · have hcancel : Reaches (Deals config byAuthority disturbed) o.chronicle
        { o.chronicle with exchange := o.connector.exchange.cancel entry.2.token } :=
      .step (o := .cancel entry.2.token) ⟨.inr (h.connections entry hentry).token, rfl⟩ rfl
    have hreaches := hcancel.trans (close_reaches _ entry.2.resolver)
    rw [step, hdone]
    exact ⟨sound_of_exchange h hreaches, hreaches⟩

theorem refresh_sound (h : o.Sound config byAuthority) (name : String) :
    (o.step (.refresh name)).Sound config byAuthority ∧
      Reaches (Deals config byAuthority disturbed) o.chronicle
        (o.step (.refresh name)).chronicle := by
  rcases o.withConnection_cases name fun c connection => c.refresh connection 1 with
    hsame | ⟨entry, hentry, hdone⟩
  · rw [step, hsame]
    exact ⟨h, .refl _ _⟩
  · have hreaches : Reaches (Deals config byAuthority disturbed) o.chronicle
        { o.chronicle with exchange := o.connector.exchange.refresh entry.2.resolver 1 } := by
      cases entry.2.resolver with
      | none => exact .refl _ _
      | some n => exact .step (o := .request n) ⟨trivial, rfl⟩ rfl
    rw [step, hdone]
    exact ⟨sound_of_exchange h hreaches, hreaches⟩

theorem register_sound (h : o.Sound config byAuthority) (scheme : String)
    (addresses : List Address) (complaint : Option String) :
    (o.step (.register scheme addresses complaint)).Sound config byAuthority := by
  refine sound_of_reaches h (.refl (fun _ => True) _) rfl rfl ?_ ?_
  · intro entry hentry
    rcases mem_register hentry with hnew | hold
    · refine .inr fun options hdns => ?_
      rw [hnew] at hdns
      cases hdns
    · exact .inl hold
  · exact fun entry hentry => .inl (h.connections entry hentry)

/-- Calls change neither the token of a connection nor its target nor its watch. -/
theorem use_sound (h : o.Sound config byAuthority) (name : String) (breaker : Breaker)
    (updates : Receiver) :
    (o.step (.use name breaker updates)).Sound config byAuthority ∧
      (o.step (.use name breaker updates)).chronicle = o.chronicle := by
  rcases o.withConnection_cases name fun c connection =>
      c.update name { connection with breaker, updates } with hsame | ⟨entry, hentry, hdone⟩
  · rw [step, hsame]
    exact ⟨h, rfl⟩
  · rw [step, hdone]
    refine ⟨sound_of_reaches h (.refl (fun _ => True) _) rfl rfl
      (fun _ hentry => .inl hentry) ?_, rfl⟩
    intro changed hchanged
    obtain ⟨before, hbefore, rfl⟩ := List.mem_map.mp hchanged
    refine .inl ?_
    split
    · have hstands := h.connections entry hentry
      exact ⟨hstands.token, hstands.target, hstands.watch⟩
    · exact h.connections before hbefore

/-- What is done with a connector comes to a number of occurrences, and leaves the office sound. -/
theorem deal_reaches (disturbed : Bool) (h : o.Sound config byAuthority) {e : Errand}
    (hdeals : ∀ occurrence, e ≠ .background occurrence)
    (hdisturbs : e.disturbs = true → disturbed = true) :
    (o.step e).Sound config byAuthority ∧
      Reaches (Deals config byAuthority disturbed) o.chronicle (o.step e).chronicle := by
  cases e with
  | connect name raw => exact connect_sound h name raw
  | drop name => exact drop_sound h name
  | close name => exact close_sound h name
  | refresh name => exact refresh_sound h name
  | stop =>
      have hreaches : Reaches (Deals config byAuthority disturbed) o.chronicle
          { o.chronicle with
            exchange := o.connector.exchange.cancel o.connector.shutdown.origin } :=
        .step (o := .cancel o.connector.shutdown.origin) ⟨.inl (hdisturbs rfl), rfl⟩ rfl
      exact ⟨sound_of_reaches h hreaches rfl rfl (fun _ hentry => .inl hentry)
        fun entry hentry => .inl (h.connections entry hentry), hreaches⟩
  | register scheme addresses complaint =>
      exact ⟨register_sound h scheme addresses complaint, .refl _ _⟩
  | use name breaker updates =>
      obtain ⟨hsound, hsame⟩ := use_sound h name breaker updates
      rw [hsame]
      exact ⟨hsound, .refl _ _⟩
  | background occurrence => exact absurd rfl (hdeals occurrence)

/-- **An errand comes to a number of occurrences,** and leaves the office sound. -/
theorem errand_reaches (disturbed : Bool) (h : o.Sound config byAuthority) (e : Errand)
    (hdisturbs : e.disturbs = true → disturbed = true) :
    (o.step e).Sound config byAuthority ∧
      Reaches (Serves config byAuthority disturbed) o.chronicle (o.step e).chronicle := by
  cases e with
  | background occurrence =>
      simp only [step]
      split
      · rename_i hbackground
        have hreaches : Reaches (Serves config byAuthority disturbed) o.chronicle
            (o.chronicle.step occurrence) := by
          refine .step (o := occurrence) ?_ rfl
          cases occurrence with
          | go => trivial
          | sweep => trivial
          | clear => trivial
          | pass => trivial
          | jump => exact hdisturbs rfl
          | retire => trivial
          | elsewhere => trivial
          | _ => cases hbackground
        exact ⟨sound_of_reaches h hreaches rfl rfl (fun _ hentry => .inl hentry)
          fun entry hentry => .inl (h.connections entry hentry), hreaches⟩
      · exact ⟨h, .refl _ _⟩
  | _ =>
      obtain ⟨hsound, hdeals⟩ := deal_reaches disturbed h (fun _ => Errand.noConfusion) hdisturbs
      exact ⟨hsound, hdeals.mono fun _ hdeal => hdeal.1⟩

theorem sound_errand (h : o.Sound config byAuthority) (e : Errand) :
    (o.step e).Sound config byAuthority :=
  (errand_reaches true h e fun _ => rfl).1

/-- **All that is done with a connector is seen in the chronicle of its exchange.** -/
theorem errands_reach (disturbed : Bool) (h : o.Sound config byAuthority) (errands : List Errand)
    (hdisturbs : ∀ e ∈ errands, e.disturbs = true → disturbed = true) :
    (run errands o).Sound config byAuthority ∧
      Reaches (Serves config byAuthority disturbed) o.chronicle (run errands o).chronicle := by
  induction errands generalizing o with
  | nil => exact ⟨h, .refl _ _⟩
  | cons e errands ih =>
      obtain ⟨hsound, hfirst⟩ := errand_reaches disturbed h e (hdisturbs e List.mem_cons_self)
      obtain ⟨hlast, hrest⟩ := ih hsound fun e' he' => hdisturbs e' (List.mem_cons_of_mem _ he')
      exact ⟨hlast, hfirst.trans hrest⟩

theorem sound_start (config : Config) (directory : Directory) (byAuthority : Bool)
    (draw : Nat → Float) : (start config directory byAuthority draw).Sound config byAuthority where
  configured := rfl
  origin := rfl
  chronicle := by
    rw [start_chronicle]
    exact sound_run (Chronicle.sound_start directory) _
  marks := by
    let minted := Chronicle.run [.mint none, .mint (some ⟨[0]⟩), .mint (some ⟨[0]⟩)]
      (.start directory)
    have hthree : minted.shared.tokens.next = 3 := rfl
    have hmarks := marks_step (v := minted) (sound_run (Chronicle.sound_start directory) _)
      (.janitor config.resolver.cacheClearInterval ⟨[1, 0]⟩)
    rw [hthree] at hmarks
    have hshared : (start config directory byAuthority draw).shared =
        (start config directory byAuthority draw).chronicle.shared := rfl
    rw [hshared, start_chronicle]
    exact hmarks
  builders := by
    intro entry hentry options hdns
    rcases mem_register hentry with hlast | hbefore
    · rw [hdns] at hlast
      exact Builder.dns.inj hlast
    · rcases mem_register hbefore with hfirst | hnone
      · rw [hdns] at hfirst
        cases hfirst
      · exact absurd hnone List.not_mem_nil
  connections := fun _ hentry => absurd hentry List.not_mem_nil

/-- What is done with a new connector is seen from the very beginning. -/
theorem run_reaches (config : Config) (directory : Directory) (byAuthority : Bool)
    (draw : Nat → Float) (errands : List Errand) :
    (run errands (start config directory byAuthority draw)).Sound config byAuthority ∧
      Reaches (Serves config byAuthority true) (.start directory)
        (run errands (start config directory byAuthority draw)).chronicle := by
  obtain ⟨hsound, hreaches⟩ := errands_reach true
    (sound_start config directory byAuthority draw) errands fun _ _ _ => rfl
  refine ⟨hsound, .trans ?_ hreaches⟩
  refine ⟨opening config, ?_, (start_chronicle config directory byAuthority draw).symm⟩
  simp [opening, Serves]

/-- A connector that can be made is the one an office starts with, and clears its cache in a
rhythm. -/
theorem make_eq {config : Config} {directory : Directory} {byAuthority : Bool} {draw : Nat → Float}
    {c : Connector} (h : Connector.make config directory byAuthority draw = .ok c) :
    c = (start config directory byAuthority draw).connector ∧
      0 < config.resolver.cacheClearInterval.toNanos := by
  unfold Connector.make at h
  cases hvalid : config.validate with
  | error errors =>
      rw [hvalid] at h
      cases h
  | ok accepted =>
      obtain ⟨hnone, rfl⟩ := Config.validate_eq_ok_iff.mp hvalid
      rw [hvalid] at h
      exact ⟨(Except.ok.inj h).symm, Config.interval_pos_of_valid hnone⟩

end Office

end Dialer
