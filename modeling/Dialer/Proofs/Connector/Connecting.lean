import Dialer.Proofs.Config.Validation
import Dialer.Proofs.Connector.Holdings
import Dialer.Proofs.Target

/-!
# Connecting, and what it can fail of

Connecting comes to a number of effects, one after the other, and may fail in between. As a
program over the connector (`Connector.attempt`) it keeps what it has done by then; this program
and `Connector.connect` come to the same (`attempt_connect`). It fails before its first effect,
unless the builder complains.

With an accepted configuration and builders that do not complain there are two reasons left to
fail: the target does not parse, or its scheme is not registered (`validated_connects`).
-/

namespace Dialer

open Resolver

/-! ## Registered builders -/

namespace Resolver.Registry

/-- The registry of builders that were registered one after the other. -/
def of (builders : List Builder) : Registry :=
  builders.foldl register empty

theorem toList_keyOf (scheme : String) :
    (keyOf scheme).toList = scheme.toList.map Char.toLower :=
  String.toList_map

theorem of_concat (builders : List Builder) (b : Builder) :
    of (builders ++ [b]) = (of builders).register b := by
  simp [of]

theorem get?_register (r : Registry) (b : Builder) (scheme : String) :
    (r.register b).get? scheme =
      if keyOf b.scheme = keyOf scheme then some b else r.get? scheme := by
  unfold get? register
  rw [List.lookup_cons, Office.lookup_filter]
  by_cases hkey : keyOf scheme = keyOf b.scheme
  · rw [if_pos hkey.symm, hkey, beq_self_eq_true]
  · rw [if_neg (Ne.symm hkey), if_neg hkey, beq_false_of_ne hkey]

theorem get?_of (builders : List Builder) (scheme : String) :
    (of builders).get? scheme =
      builders.reverse.find? fun b => keyOf b.scheme == keyOf scheme := by
  induction builders using List.reverseRecOn with
  | nil => rfl
  | append_singleton builders b ih =>
      rw [of_concat, get?_register, ih, List.reverse_concat, List.find?_cons]
      by_cases hkey : keyOf b.scheme = keyOf scheme
      · rw [if_pos hkey, hkey, beq_self_eq_true]
      · rw [if_neg hkey, beq_false_of_ne hkey]

theorem get?_of_eq_none {builders : List Builder} {scheme : String} :
    (of builders).get? scheme = none ↔ ∀ b ∈ builders, keyOf b.scheme ≠ keyOf scheme := by
  simp [get?_of]

/-- The builder registered last counts. -/
theorem last_of_get?_of {builders : List Builder} {scheme : String} {b : Builder}
    (h : (of builders).get? scheme = some b) :
    ∃ before behind, builders = before ++ b :: behind ∧ keyOf b.scheme = keyOf scheme ∧
      ∀ b' ∈ behind, keyOf b'.scheme ≠ keyOf scheme := by
  rw [get?_of, List.find?_eq_some_iff_append] at h
  obtain ⟨hkey, later, earlier, hsplit, hlater⟩ := h
  refine ⟨earlier.reverse, later.reverse, ?_, by simpa using hkey, fun b' hb' => ?_⟩
  · rw [← List.reverse_reverse builders, hsplit]
    simp
  · simpa using hlater b' (List.mem_reverse.mp hb')

end Resolver.Registry
/-- It makes resolvers and has no complaint. -/
def Resolver.Builder.Obliging : Builder → Prop
  | .fixed _ _ (some _) => False
  | _ => True

theorem Resolver.Builder.Obliging.builds {b : Builder} (h : b.Obliging) (x : Exchange) (t : Target)
    (box : Nat) : ∃ made, x.build b t box = .ok made := by
  cases b with
  | passthrough => exact ⟨_, rfl⟩
  | dns options =>
      unfold Exchange.build
      cases t.literalAddress? with
      | some address => exact ⟨_, rfl⟩
      | none => exact ⟨_, rfl⟩
  | fixed scheme addresses complaint =>
      cases complaint with
      | none => exact ⟨_, rfl⟩
      | some complaint => exact h.elim

/-- The scheme of a parsed target is in lower case. -/
theorem Target.scheme_lower {raw : String} {ports : DefaultPorts} {t : Target}
    (h : Target.parse raw ports = .ok t) : Registry.keyOf t.scheme = t.scheme := by
  have hscheme := (Target.parse_eq_ok_iff.mp h).1
  have hlower := (Target.split_formed raw.toList).lower
  rw [← String.toList_inj, Registry.toList_keyOf, hscheme, hlower]

namespace Connector

/-! ## Connecting, one effect after the other -/

/-- A part of connecting. What it has done to the connector stays done if a later part fails. -/
abbrev Effort (α : Type) := ExceptT ConnectError (StateM Connector) α

namespace Effort

/-- An answer that has no effect. -/
def settle {α : Type} : Except ConnectError α → Effort α
  | .ok a => pure a
  | .error e => throw e

/-- The answer, and the connector behind it. -/
def run {α : Type} (e : Effort α) (c : Connector) : Except ConnectError α × Connector :=
  StateT.run (ExceptT.run e) c

theorem run_bind {α β : Type} (e : Effort α) (f : α → Effort β) (c : Connector) :
    (e >>= f).run c =
      match e.run c with
      | (.ok a, c) => (f a).run c
      | (.error error, c) => (.error error, c) := by
  unfold run
  rw [ExceptT.run_bind, StateT.run_bind]
  show (match StateT.run (ExceptT.run e) c with | (r, c) => _) = _
  rcases StateT.run (ExceptT.run e) c with ⟨_ | _, c⟩ <;> rfl

theorem run_get (c : Connector) : (get : Effort Connector).run c = (.ok c, c) :=
  rfl

theorem run_modify (f : Connector → Connector) (c : Connector) :
    (modify f : Effort Unit).run c = (.ok (), f c) :=
  rfl

theorem run_settle {α : Type} (r : Except ConnectError α) (c : Connector) :
    (settle r).run c = (r, c) := by
  cases r <;> rfl

end Effort

/-- Connecting: the target is parsed, its builder found and the policy made; an outbox is opened and
subscribed to, the builder makes a resolver, and the connection gets its token and its name. -/
def attempt (name raw : String) : Effort Unit := do
  let target ← Effort.settle
    ((Target.parse raw (← get).config.resolver.ports).mapError ConnectError.parse)
  let builder ← Effort.settle
    (((← get).registry.get? target.scheme).elim (.error (.unknownScheme target.scheme)) .ok)
  let policy ← Effort.settle
    ((RetryPolicy.ofConfig (← get).config.retries).mapError ConnectError.backoff)
  let breaker := Breaker.make (.ofConfig raw (← get).config.breaker) (← get).now
  let box := (← get).exchange.shared.openBox.1
  modify (·.apply fun s => s.openBox.2)
  let updates := ((← get).exchange.shared.box box).subscribe
  let (resolver, x) ← Effort.settle ((← get).exchange.build builder target box)
  modify (·.via fun _ => x)
  let token := ((← get).exchange.childToken (← get).shutdown.origin).1
  modify fun c => c.via fun x => (x.childToken c.shutdown.origin).2
  modify (·.drop name)
  modify fun c => { c with connections := c.connections ++
    [(name, ⟨target, resolver, box, updates, breaker, policy, token⟩)] }

/-- An attempt fails, and nothing has been done. -/
def Fails (c : Connector) (name raw : String) (e : ConnectError) : Prop :=
  c.connect name raw = .error e ∧ (attempt name raw).run c = (.error e, c)

/-- An attempt succeeds. -/
def Succeeds (c : Connector) (name raw : String) (c' : Connector) : Prop :=
  c.connect name raw = .ok c' ∧ (attempt name raw).run c = (.ok (), c')

variable {c : Connector} {raw : String} {t : Target} {b : Builder} {policy : RetryPolicy}

theorem fails_of_parse (name : String) {e : ParseError}
    (hparse : Target.parse raw c.config.resolver.ports = .error e) :
    c.Fails name raw (.parse e) := by
  constructor
  · unfold connect
    rw [hparse]
    rfl
  · unfold attempt
    simp only [Effort.run_bind, Effort.run_get, Effort.run_settle, hparse, Except.mapError]

theorem fails_of_scheme (name : String)
    (hparse : Target.parse raw c.config.resolver.ports = .ok t)
    (hbuilder : c.registry.get? t.scheme = none) : c.Fails name raw (.unknownScheme t.scheme) := by
  constructor
  · unfold connect
    rw [hparse]
    simp only [Except.mapError, bind, Except.bind, hbuilder]
    rfl
  · unfold attempt
    simp only [Effort.run_bind, Effort.run_get, Effort.run_settle, hparse, Except.mapError,
      hbuilder, Option.elim]

theorem fails_of_policy (name : String)
    (hparse : Target.parse raw c.config.resolver.ports = .ok t)
    (hbuilder : c.registry.get? t.scheme = some b) {e : BackoffError}
    (hpolicy : RetryPolicy.ofConfig c.config.retries = .error e) : c.Fails name raw (.backoff e) := by
  constructor
  · unfold connect
    rw [hparse]
    simp only [Except.mapError, bind, Except.bind, hbuilder, hpolicy]
  · unfold attempt
    simp only [Effort.run_bind, Effort.run_get, Effort.run_settle, hparse, Except.mapError,
      hbuilder, Option.elim, hpolicy]

/-- A builder that complains leaves an outbox behind that no one reads. -/
theorem complains_of_build (name : String)
    (hparse : Target.parse raw c.config.resolver.ports = .ok t)
    (hbuilder : c.registry.get? t.scheme = some b)
    (hpolicy : RetryPolicy.ofConfig c.config.retries = .ok policy) {e : ConnectError}
    (hbuild : { c.exchange with shared := c.exchange.shared.openBox.2 }.build b t
      c.exchange.shared.outboxes.length = .error e) :
    c.connect name raw = .error e ∧
      (attempt name raw).run c = (.error e, c.apply fun s => s.openBox.2) := by
  have hestablish := Office.establish_eq c raw t b policy
  rw [hbuild] at hestablish
  constructor
  · unfold connect
    rw [hparse]
    simp only [Except.mapError, bind, Except.bind, hbuilder, hpolicy, hestablish, Except.map]
  · unfold attempt
    have hmade : (c.apply fun s => s.openBox.2).exchange.build b t c.exchange.shared.openBox.1 =
        .error e := hbuild
    simp only [Effort.run_bind, Effort.run_get, Effort.run_modify, Effort.run_settle, hparse,
      Except.mapError, hbuilder, Option.elim, hpolicy, hmade]

/-- Behind the outbox only the builder can fail. -/
theorem succeeds_of_build (name : String)
    (hparse : Target.parse raw c.config.resolver.ports = .ok t)
    (hbuilder : c.registry.get? t.scheme = some b)
    (hpolicy : RetryPolicy.ofConfig c.config.retries = .ok policy) {resolver : Handle} {x : Exchange}
    (hbuild : { c.exchange with shared := c.exchange.shared.openBox.2 }.build b t
      c.exchange.shared.outboxes.length = .ok (resolver, x)) :
    ∃ connection made, c.establish raw t b policy = .ok (connection, made) ∧
      c.Succeeds name raw { made.drop name with
        connections := (made.drop name).connections ++ [(name, connection)] } := by
  have hestablish := Office.establish_eq c raw t b policy
  rw [hbuild] at hestablish
  refine ⟨_, _, hestablish, ?_, ?_⟩
  · unfold connect
    rw [hparse]
    simp only [Except.mapError, bind, Except.bind, hbuilder, hpolicy, hestablish, Except.map]
    rfl
  · unfold attempt
    have hmade : (c.apply fun s => s.openBox.2).exchange.build b t c.exchange.shared.openBox.1 =
        .ok (resolver, x) := hbuild
    simp only [Effort.run_bind, Effort.run_get, Effort.run_modify, Effort.run_settle, hparse,
      Except.mapError, hbuilder, Option.elim, hpolicy, hmade]
    rfl

/-- One effect after the other, connecting is answered as it is at once. -/
theorem attempt_connect (c : Connector) (name raw : String) :
    ((attempt name raw).run c).1 = (c.connect name raw).map fun _ => () := by
  cases hparse : Target.parse raw c.config.resolver.ports with
  | error e =>
      obtain ⟨hconnect, hattempt⟩ := fails_of_parse name hparse
      rw [hconnect, hattempt]
      rfl
  | ok t =>
      cases hbuilder : c.registry.get? t.scheme with
      | none =>
          obtain ⟨hconnect, hattempt⟩ := fails_of_scheme name hparse hbuilder
          rw [hconnect, hattempt]
          rfl
      | some b =>
          cases hpolicy : RetryPolicy.ofConfig c.config.retries with
          | error e =>
              obtain ⟨hconnect, hattempt⟩ := fails_of_policy name hparse hbuilder hpolicy
              rw [hconnect, hattempt]
              rfl
          | ok policy =>
              cases hbuild : { c.exchange with shared := c.exchange.shared.openBox.2 }.build b t
                  c.exchange.shared.outboxes.length with
              | error e =>
                  obtain ⟨hconnect, hattempt⟩ :=
                    complains_of_build name hparse hbuilder hpolicy hbuild
                  rw [hconnect, hattempt]
                  rfl
              | ok built =>
                  obtain ⟨_, _, -, hconnect, hattempt⟩ :=
                    succeeds_of_build name hparse hbuilder hpolicy hbuild
                  rw [hconnect, hattempt]
                  rfl

/-! ## Connectors of an accepted configuration -/

/-- A new connector: it knows two schemes, it has made no connection, and its janitor runs. -/
structure New (config : Config) (byAuthority : Bool) (c : Connector) : Prop where
  configured : c.config = config
  registry : c.registry = .of [.passthrough, .dns (options config byAuthority)]
  connections : c.connections = []
  janitor : ∃ j, c.exchange.janitors = [j] ∧ j.running = true ∧
    c.exchange.shared.isCancelled j.token = false ∧
    j.rhythm.every = config.resolver.cacheClearInterval ∧ 0 < j.rhythm.every.toNanos

theorem new_of_valid {config : Config} (h : config.errors = []) (directory : Directory)
    (byAuthority : Bool) (draw : Nat → Float) :
    ∃ c, make config directory byAuthority draw = .ok c ∧ New config byAuthority c := by
  have hpos := Config.interval_pos_of_valid h
  have hvalid := Config.validate_eq_ok_iff.mpr ⟨h, rfl⟩
  refine ⟨equip config byAuthority draw (.start directory), ?_, rfl, rfl, rfl, ?_⟩
  · unfold make
    rw [hvalid]
  · let minted : Exchange :=
      { shared := { Shared.start directory with tokens := ⟨3, []⟩ }, watches := [], janitors := [] }
    have hexchange : (equip config byAuthority draw (.start directory)).exchange =
        (minted.janitor? config.resolver.cacheClearInterval ⟨[1, 0]⟩).getD minted := rfl
    rw [hexchange]
    unfold Exchange.janitor?
    rw [show Rhythm.start? _ minted.now = _ from Config.start?_interval hpos]
    exact ⟨_, rfl, rfl, rfl, rfl, hpos⟩

/-- What becomes of connecting, with builders that were registered one after the other: the target
is not parsed, or no builder is registered under its scheme, or the connection is made by the builder
registered last under it. -/
inductive Outcome (c : Connector) (builders : List Builder) (name raw : String) : Prop
  | unparsed {e : ParseError} (hparse : Target.parse raw c.config.resolver.ports = .error e)
      (hfails : c.Fails name raw (.parse e))
  | unknown {t : Target} (hparse : Target.parse raw c.config.resolver.ports = .ok t)
      (hlower : Registry.keyOf t.scheme = t.scheme)
      (hnone : ∀ b ∈ builders, Registry.keyOf b.scheme ≠ t.scheme)
      (hfails : c.Fails name raw (.unknownScheme t.scheme))
  | connected {t : Target} {b : Builder} {before behind : List Builder} {policy : RetryPolicy}
      {connection : Connection} {made : Connector}
      (hparse : Target.parse raw c.config.resolver.ports = .ok t)
      (hbuilders : builders = before ++ b :: behind) (hkey : Registry.keyOf b.scheme = t.scheme)
      (hlast : ∀ b' ∈ behind, Registry.keyOf b'.scheme ≠ t.scheme)
      (hestablish : c.establish raw t b policy = .ok (connection, made))
      (hsucceeds : c.Succeeds name raw { made.drop name with
        connections := (made.drop name).connections ++ [(name, connection)] })

theorem outcome_of_valid {builders : List Builder} (hvalid : c.config.errors = [])
    (hregistry : c.registry = .of builders) (hobliging : ∀ b ∈ builders, b.Obliging)
    (name raw : String) : c.Outcome builders name raw := by
  cases hparse : Target.parse raw c.config.resolver.ports with
  | error e => exact .unparsed hparse (fails_of_parse name hparse)
  | ok t =>
      have hlower := Target.scheme_lower hparse
      cases hbuilder : c.registry.get? t.scheme with
      | none =>
          have hnone := Registry.get?_of_eq_none.mp (hregistry ▸ hbuilder)
          rw [hlower] at hnone
          exact .unknown hparse hlower hnone (fails_of_scheme name hparse hbuilder)
      | some b =>
          obtain ⟨before, behind, hbuilders, hkey, hlast⟩ :=
            Registry.last_of_get?_of (hregistry ▸ hbuilder)
          have hmem : b ∈ builders := by simp [hbuilders]
          obtain ⟨policy, hpolicy⟩ := Config.policy_of_valid hvalid
          obtain ⟨⟨resolver, x⟩, hbuild⟩ := (hobliging b hmem).builds
            { c.exchange with shared := c.exchange.shared.openBox.2 } t
            c.exchange.shared.outboxes.length
          obtain ⟨connection, made, hestablish, hsucceeds⟩ :=
            succeeds_of_build name hparse hbuilder hpolicy hbuild
          rw [hlower] at hkey hlast
          exact .connected hparse hbuilders hkey hlast hestablish hsucceeds

/-- **A validated configuration never fails later.** For every configuration that validation
accepts, a connector is made; its janitor runs, with a positive interval. No duration derived from
the configuration overflows, and no instant it leads to. Whatever else the connector has come to and
whatever builders are registered, of those that do not complain: connecting to a target fails
exactly if the target does not parse, with that error, or if no builder is registered under its
scheme, with the scheme in lower case; and then nothing at all has been done. Otherwise the builder
registered last under the scheme makes the resolver. And for every configuration, accepted or not,
the delays of retries are faulted exactly if no backoff can be made of them. -/
theorem validated_never_fails :
    (∀ config : Config, config.validate = .ok config →
      (∀ directory byAuthority draw, ∃ c,
        make config directory byAuthority draw = .ok c ∧ New config byAuthority c) ∧
      (config.breaker.intervalMs = 0 →
        config.breaker.openDuration.scale? 2 = some config.breaker.interval) ∧
      (∀ d ∈ config.derived, Config.InReach d) ∧
      ∀ (c : Connector) (builders : List Builder), c.config = config → c.registry = .of builders →
        (∀ b ∈ builders, b.Obliging) → ∀ name raw, c.Outcome builders name raw) ∧
    ∀ config : Config, (∃ e ∈ config.errors, e.field ∈ Config.delayFields) ↔
      ∃ error, Backoff.make config.retries.baseDelay config.retries.maxDelay = .error error := by
  refine ⟨fun config hvalidated => ?_, Config.delays_faulted_iff⟩
  have hvalid := (Config.validate_eq_ok_iff.mp hvalidated).1
  refine ⟨new_of_valid hvalid, Config.interval_eq_scale, config.derived_in_reach, ?_⟩
  rintro c builders rfl hregistry hobliging name raw
  exact outcome_of_valid hvalid hregistry hobliging name raw

/-- The default configuration is accepted, and its connectors know no scheme `no`. -/
theorem validated_never_fails_standard :
    Config.standard.validate = .ok Config.standard ∧
      ∃ c, make .standard ⟨[]⟩ false (fun _ => 0) = .ok c ∧
        c.Fails "a" "NO://x" (.unknownScheme "no") := by
  have hvalidated : Config.standard.validate = .ok Config.standard :=
    Config.validate_eq_ok_iff.mpr ⟨by decide +kernel, rfl⟩
  obtain ⟨hmake, -, -, hconnect⟩ := validated_never_fails.1 Config.standard hvalidated
  obtain ⟨c, hmade, hnew⟩ := hmake ⟨[]⟩ false (fun _ => 0)
  refine ⟨hvalidated, c, hmade, ?_⟩
  have hobliging : ∀ b ∈ [Builder.passthrough, .dns (options .standard false)], b.Obliging := by
    simp [Builder.Obliging]
  have hparse : Target.parse "NO://x" Config.standard.resolver.ports =
      .ok ⟨"no", none, "x", "x", "443"⟩ := by decide
  rw [← hnew.configured] at hparse
  cases hconnect c _ hnew.configured hnew.registry hobliging "a" "NO://x" with
  | unparsed herror _ => simp [hparse] at herror
  | unknown hok _ _ hfails =>
      obtain rfl := Except.ok.inj (hparse.symm.trans hok)
      exact hfails
  | @connected _ b _ _ _ _ _ hok hbuilders hkey _ _ _ =>
      obtain rfl := Except.ok.inj (hparse.symm.trans hok)
      -- neither builder has this scheme
      have hmem : b ∈ [Builder.passthrough, .dns (options .standard false)] := by simp [hbuilders]
      have hletters := congrArg String.toList hkey
      rw [Registry.toList_keyOf] at hletters
      rcases List.mem_pair.mp hmem with rfl | rfl <;> exact absurd hletters (by decide)

end Connector

end Dialer
