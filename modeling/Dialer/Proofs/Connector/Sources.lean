import Dialer.Proofs.Connector.Office
import Dialer.Proofs.Resolver.Provenance

/-!
# Which answers the connections of a connector are given

The connections of a connector share one cache, whose keys are endpoints. An endpoint says which
host is looked up and which port its addresses get, so whatever is stored under it is an answer that
any connection to it may be given (`addresses_sourced`).

It does not say which backend is asked. A connection that names a nameserver looks hosts up there,
but is served from the cache what any connection to the same endpoint has stored
(`nameserver_answers`): the nameserver is honoured where all connections to the endpoint name it.
-/

namespace Dialer.Office

open Resolver Chronicle

variable {config : Config} {byAuthority disturbed : Bool}

theorem endpoint_of_parse {raw : String} {ports : DefaultPorts} {t : Target}
    (h : Target.parse raw ports = .ok t) :
    HostPort.parse t.endpoint ports.endpoint = .ok ⟨t.host, t.port⟩ := by
  unfold Target.parse at h
  cases hauthority : Target.parseAuthority (Target.split raw.toList).authority ports.nameserver with
  | error e =>
      simp only [hauthority, bind, Except.bind] at h
      cases h
  | ok authority =>
      simp only [hauthority, bind, Except.bind] at h
      cases hendpoint : HostPort.parse (String.ofList (Target.split raw.toList).endpoint)
          ports.endpoint with
      | error e =>
          rw [hendpoint] at h
          cases h
      | ok hp =>
          rw [hendpoint] at h
          obtain rfl := Except.ok.inj h
          exact hendpoint

/-- Every watch has the assignment of a parsed target. -/
def Assigns (config : Config) (byAuthority : Bool) (v : Chronicle) : Prop :=
  ∀ n w, v.watch? n = some w → ∃ raw t, Target.parse raw config.resolver.ports = .ok t ∧
    w.assignment = (Connector.options config byAuthority).assignment t

theorem assigns_step {v : Chronicle} (hsound : v.Sound) {o : Occurrence}
    (ho : Serves config byAuthority disturbed o) (h : Assigns config byAuthority v) :
    Assigns config byAuthority (v.step o) := by
  have htakes := v.step_takes o hsound.within
  generalize v.step o = v' at htakes ⊢
  cases htakes with
  | acts n w deeds l shared ho hwatch hfree hacts htold =>
      obtain ⟨-, hassignment, -, -⟩ := hacts.keeps
      obtain ⟨-, hassignment', -, -⟩ := standing_keeps w (v.points n)
      intro m w' hm
      rcases mem_set hm with ⟨rfl, rfl⟩ | ⟨-, hsame⟩
      · rw [hassignment, hassignment']
        exact h m w hwatch
      · exact h m w' hsame
  | alters n w phase wanted agenda hwatch hwithin hlooking hstopped hagenda =>
      intro m w' hm
      rcases mem_set hm with ⟨rfl, rfl⟩ | ⟨-, hsame⟩
      · exact h m w hwatch
      · exact h m w' hsame
  | begins options target w agenda hbegins hassignment hnumber hbox htoken hphase hagenda =>
      subst hbegins
      obtain ⟨rfl, raw, hparse⟩ := ho
      intro m w' hm
      rcases mem_append hm with hold | ⟨rfl, rfl⟩
      · exact h m w' hold
      · exact ⟨raw, target, hparse, hassignment⟩
  | aside _ haside =>
      intro m w' hm
      rw [watch?, haside.watches] at hm
      exact h m w' hm

/-- What the sources of addresses rest on. -/
structure Sourced (config : Config) (byAuthority : Bool) (v : Chronicle) : Prop where
  traced : Traced (fun _ => True) v
  assigns : Assigns config byAuthority v

theorem sourced_reaches {v v' : Chronicle} (hsound : v.Sound)
    (hreaches : Reaches (Serves config byAuthority disturbed) v v')
    (h : Sourced config byAuthority v) : Sourced config byAuthority v' := by
  obtain ⟨occurrences, hserves, rfl⟩ := hreaches
  refine run_keeps (Serves config byAuthority disturbed) ?_ hsound hserves h
  intro v o hv ho ⟨htraced, hassigns⟩
  refine ⟨traced_step hv htraced ?_ fun _ _ _ => trivial, assigns_step hv ho hassigns⟩
  rintro key addresses rfl
  exact ho

/-- Whatever is done with a connector, each watch works for a parsed target, and the journal tells
where its addresses come from. -/
theorem sourced_run (config : Config) (directory : Directory) (byAuthority : Bool)
    (draw : Nat → Float) (errands : List Errand) :
    (run errands (start config directory byAuthority draw)).Sound config byAuthority ∧
      Sourced config byAuthority
        (run errands (start config directory byAuthority draw)).chronicle := by
  obtain ⟨hsound, hreaches⟩ := run_reaches config directory byAuthority draw errands
  refine ⟨hsound, sourced_reaches (Chronicle.sound_start directory) hreaches ?_⟩
  exact ⟨traced_start _ directory, fun _ _ h => by cases h⟩

/-- A set consists of the addresses in one answer of a backend: some watch with this endpoint
looked up the host of the endpoint, was given the answer, and stored the set. -/
def AnswersBy (config : Config) (o : Office) (backend : Backend) (endpoint : String)
    (addresses : List Address) : Prop :=
  ∃ (hp : HostPort) (n : Nat) (a : Assignment) (asked heard stored : Nat) (answer : LookupAnswer)
    (entries : List String),
    HostPort.parse endpoint config.resolver.defaultPort = .ok hp ∧
    a.key = endpoint ∧ a.host = hp.host ∧ a.backend = backend ∧
    ⟨backend, hp.host, asked⟩ ∈ o.shared.lookups ∧
    ⟨n, a, asked, .asks answer⟩ ∈ o.journal ∧ answer.finding = .ips entries ∧
    ⟨n, a, heard, .hears entries⟩ ∈ o.journal ∧ ⟨n, a, stored, .stores addresses⟩ ∈ o.journal ∧
    addresses = entries.filterMap fun ip => Address.ofIp? ip hp.port

/-- The same of any backend. -/
def Answers (config : Config) (o : Office) (endpoint : String) (addresses : List Address) : Prop :=
  ∃ backend, o.AnswersBy config backend endpoint addresses

theorem answers_of_stores {o : Office} (hsound : o.Sound config byAuthority)
    (hsourced : Sourced config byAuthority o.chronicle) {store : Entry} (hmem : store ∈ o.journal)
    {addresses : List Address} (hstores : store.deed = .stores addresses) :
    o.AnswersBy config store.assignment.backend store.assignment.key addresses := by
  obtain ⟨asked, entries, haddresses, answer, heard, hasks, hhears, hfinding⟩ :=
    hsourced.traced.coherent.heard hsound.chronicle.one_assignment hmem hstores
  obtain ⟨w, hwatch, hassignment⟩ := hsound.chronicle.assigned store hmem
  obtain ⟨raw, t, hparse, htarget⟩ := hsourced.assigns _ w hwatch
  rw [hassignment] at htarget
  have hkey : store.assignment.key = t.endpoint := by rw [htarget]; rfl
  have hhost : store.assignment.host = t.host := by rw [htarget]; rfl
  have hport : store.assignment.port = t.port := by rw [htarget]; rfl
  have hendpoint : HostPort.parse t.endpoint config.resolver.ports.endpoint = _ :=
    endpoint_of_parse hparse
  rw [← hkey] at hendpoint
  rw [hport] at haddresses
  refine ⟨⟨t.host, t.port⟩, store.number, store.assignment, asked, heard, store.time, answer,
    entries, hendpoint, rfl, hhost, rfl, ?_, hasks, hfinding, hhears, ?_, haddresses⟩
  · have hall : o.shared.lookups = o.journal.lookups := hsound.chronicle.lookups
    rw [hall, ← hhost]
    exact List.mem_filterMap.mpr ⟨_, hasks, rfl⟩
  · rw [← hstores]
    exact hmem

theorem port_of_answers {o : Office} {endpoint : String} {addresses : List Address}
    (h : o.Answers config endpoint addresses) {hp : HostPort}
    (hparse : HostPort.parse endpoint config.resolver.defaultPort = .ok hp) {address : Address}
    (haddress : address ∈ addresses) : ∃ host, address.text = host ++ ":" ++ hp.port := by
  obtain ⟨_, hp', -, -, -, -, -, -, entries, hparse', -, -, -, -, -, -, -, -, rfl⟩ := h
  obtain rfl := Except.ok.inj (hparse'.symm.trans hparse)
  obtain ⟨ip, -, hof⟩ := List.mem_filterMap.mp haddress
  obtain ⟨host, -, rfl⟩ := Option.map_eq_some_iff.mp hof
  exact ⟨host, rfl⟩

/-- **Where addresses come from.** Whatever is done with a connector, and however its connections'
cycles and the clears of the cache come to pass: each entry of the cache, and each set with
addresses that a watch has published, consists of the valid addresses in one answer, in their order
and as often as they are in it. The answer was given to a watch with the same endpoint, for the host
of that endpoint, and the addresses have its port. -/
theorem addresses_sourced (config : Config) (directory : Directory) (byAuthority : Bool)
    (draw : Nat → Float) (errands : List Errand) :
    let o := run errands (start config directory byAuthority draw)
    (∀ endpoint addresses, o.shared.cache.get? endpoint = some addresses →
      o.Answers config endpoint addresses) ∧
    (∀ (n : Nat) (w : Watch), o.connector.exchange.watches[n]? = some w →
      ∀ p ∈ (o.shared.box w.box).published, p.addresses ≠ [] →
        o.Answers config w.assignment.key p.addresses) ∧
    (∀ entry ∈ o.connector.connections, ∀ n, entry.2.resolver = some n →
      ∃ w, o.connector.exchange.watches[n]? = some w ∧ w.box = entry.2.box ∧
        w.assignment.key = entry.2.target.endpoint) ∧
    ∀ endpoint addresses hp, o.Answers config endpoint addresses →
      HostPort.parse endpoint config.resolver.defaultPort = .ok hp →
        ∀ address ∈ addresses, ∃ host, address.text = host ++ ":" ++ hp.port := by
  intro o
  obtain ⟨hsound, hsourced⟩ := sourced_run config directory byAuthority draw errands
  refine ⟨?_, ?_, ?_, ?_⟩
  · intro endpoint addresses hcached
    obtain ⟨store, hstored, hstores, -⟩ := hsourced.traced.cached endpoint addresses hcached
    obtain ⟨hkey, _, _, hsplit⟩ := Journal.exists_of_storeOf? hstored
    rw [← hkey]
    exact ⟨_, answers_of_stores hsound hsourced (Journal.mem_split hsplit) hstores⟩
  · intro n w hwatch p hp hsome
    have hpublished : (o.shared.box w.box).published = o.journal.publications n :=
      hsound.chronicle.published n w hwatch
    rw [hpublished] at hp
    obtain ⟨e, he, hpublication⟩ := List.mem_filterMap.mp hp
    obtain ⟨hmem, hnumber⟩ := List.mem_filter.mp he
    obtain ⟨later, earlier, hsplit⟩ := List.append_of_mem hmem
    have hassigned := hsound.chronicle.one_assignment
    have hdeed : e.deed = .publishes p.addresses := by
      cases hdeed : e.deed with
      | publishes addresses =>
          rw [hdeed] at hpublication
          obtain rfl := Option.some.inj hpublication
          rfl
      | _ =>
          rw [hdeed] at hpublication
          cases hpublication
    rcases hsourced.traced.coherent.published hsplit hassigned hdeed with
      ⟨-, hnothing⟩ | ⟨store, hstored⟩
    · exact absurd hnothing hsome
    · obtain ⟨hstore, hstores⟩ := hstored.mem
      obtain ⟨w', hwatch', hassignment⟩ := hsound.chronicle.assigned e hmem
      rw [of_decide_eq_true hnumber] at hwatch'
      obtain rfl := Option.some.inj (hwatch'.symm.trans hwatch)
      rw [hassignment, ← hstored.key_eq hassigned hmem]
      exact ⟨_, answers_of_stores hsound hsourced hstore hstores⟩
  · intro entry hentry n hn
    obtain ⟨w, hwatch, hbox, hassignment⟩ := (hsound.connections entry hentry).watch n hn
    exact ⟨w, hwatch, hbox, congrArg Assignment.key hassignment⟩
  · intro endpoint addresses hp hanswers hparse address haddress
    exact port_of_answers hanswers hparse haddress

/-- The second of two connections to an endpoint is served what the first one has stored. -/
theorem addresses_sourced_shared :
    let o := run ([.connect "a" "svc:80"] ++ List.replicate 5 (.background (.go 0)) ++
      [.connect "b" "svc:80"] ++ List.replicate 4 (.background (.go 1)))
      (start .standard ⟨[("svc", [⟨.zero, .ips ["1.1.1.1", "x"]⟩])]⟩ false fun _ => 0.0)
    (o.shared.box 1).published = [⟨0, [⟨"1.1.1.1:80"⟩]⟩] ∧
      o.Answers .standard "svc:80" [⟨"1.1.1.1:80"⟩] := by
  intro o
  have hwatch : o.connector.exchange.watches[1]? =
      some ⟨1, ⟨"svc:80", "svc", "80", .standard, .ofSecs 5⟩, ⟨[5, 2, 0]⟩, 1, .parked, false⟩ := by
    decide +kernel
  have hpublished : (o.shared.box 1).published = [⟨0, [⟨"1.1.1.1:80"⟩]⟩] := by
    decide +kernel
  refine ⟨hpublished, ?_⟩
  exact (addresses_sourced .standard _ false _ _).2.1 1 _ hwatch ⟨0, [⟨"1.1.1.1:80"⟩]⟩
    (hpublished ▸ List.mem_singleton_self _) (List.cons_ne_nil _ _)

/-! ## Nameservers -/

/-- **Whom a connection with a nameserver believes.** A connection whose target names a nameserver
looks its host up there and nowhere else. Each set that it publishes from a cycle that did not fail
is an answer to some watch with its endpoint, given by the backend of that watch: this may be the
answer it was given itself, or one that was in the cache. So if all watches with the endpoint name
this nameserver, the answer is the nameserver's. -/
theorem nameserver_answers (config : Config) (directory : Directory) (draw : Nat → Float)
    (errands : List Errand) {n : Nat} {w : Watch} {t : Target} {authority : String}
    (hwatch : (run errands (start config directory true draw)).connector.exchange.watches[n]? =
      some w)
    (htarget : w.assignment = (Connector.options config true).assignment t)
    (hauthority : t.authority = some authority) :
    let o := run errands (start config directory true draw)
    (o.shared.box w.box).published = o.journal.publications n ∧
    (∀ e ∈ o.journal, e.number = n → ∀ record, e.deed.lookup? e.assignment e.time = some record →
      record = ⟨.nameserver authority, t.host, e.time⟩) ∧
    ∀ (later : Journal) (e : Entry) (earlier : Journal) (addresses : List Address),
      o.journal = later ++ e :: earlier → e.number = n → e.deed = .publishes addresses →
      earlier.last? n ≠ some .fails →
      ∃ store, o.journal.StoredBy e addresses store ∧
        o.AnswersBy config store.assignment.backend t.endpoint addresses ∧
        ((∀ (m : Nat) (u : Watch), o.connector.exchange.watches[m]? = some u →
          u.assignment.key = t.endpoint → u.assignment.backend = .nameserver authority) →
            o.AnswersBy config (.nameserver authority) t.endpoint addresses) := by
  intro o
  obtain ⟨hsound, hsourced⟩ := sourced_run config directory true draw errands
  have hassignment {e : Entry} (he : e ∈ o.journal) (hnumber : e.number = n) :
      e.assignment = (Connector.options config true).assignment t := by
    obtain ⟨u, hu, hsame⟩ := hsound.chronicle.assigned e he
    rw [hnumber] at hu
    obtain rfl := Option.some.inj (hu.symm.trans hwatch)
    rw [← hsame, htarget]
  have hbackend : ((Connector.options config true).assignment t).backend =
      .nameserver authority := by
    simp [LookupOptions.assignment, LookupOptions.backendFor, Connector.options, hauthority]
  refine ⟨hsound.chronicle.published n w hwatch, ?_, ?_⟩
  · intro e he hnumber record hrecord
    cases hdeed : e.deed with
    | asks answer =>
        rw [hdeed, hassignment he hnumber] at hrecord
        obtain rfl := Option.some.inj hrecord
        rw [hbackend]
        rfl
    | _ =>
        rw [hdeed] at hrecord
        cases hrecord
  · intro later e earlier addresses hsplit hnumber hdeed hsucceeds
    have hmem : e ∈ o.journal := Journal.mem_split hsplit
    have hassigned := hsound.chronicle.one_assignment
    rcases hsourced.traced.coherent.published hsplit hassigned hdeed with
      ⟨hfails, -⟩ | ⟨store, hstored⟩
    · rw [hnumber] at hfails
      exact absurd hfails hsucceeds
    · obtain ⟨hstore, hstores⟩ := hstored.mem
      have hkey : store.assignment.key = t.endpoint := by
        rw [hstored.key_eq hassigned hmem, hassignment hmem hnumber]
        rfl
      have hanswers := answers_of_stores hsound hsourced hstore hstores
      rw [hkey] at hanswers
      refine ⟨store, hstored, hanswers, fun hall => ?_⟩
      obtain ⟨u, hu, hsame⟩ := hsound.chronicle.assigned store hstore
      have hthere := hall store.number u hu (by rw [hsame, hkey])
      rw [hsame] at hthere
      rwa [hthere] at hanswers

/-- A connection that names a nameserver is served what another backend has answered. -/
theorem nameserver_bypassed :
    let o := run ([.connect "a" "svc:80"] ++ List.replicate 5 (.background (.go 0)) ++
      [.connect "b" "dns://8.8.8.8/svc:80"] ++ List.replicate 4 (.background (.go 1)))
      (start .standard ⟨[("svc", [⟨.zero, .ips ["1.1.1.1"]⟩, ⟨.zero, .ips ["2.2.2.2"]⟩])]⟩ true
        fun _ => 0.0)
    o.connector.exchange.watches[1]?.map (·.assignment.backend) = some (.nameserver "8.8.8.8:53") ∧
      (o.shared.box 1).published = [⟨0, [⟨"1.1.1.1:80"⟩]⟩] ∧
      ¬ o.AnswersBy .standard (.nameserver "8.8.8.8:53") "svc:80" [⟨"1.1.1.1:80"⟩] := by
  intro o
  have hlookups : o.shared.lookups = [⟨.standard, "svc", 0⟩] := by decide +kernel
  refine ⟨by decide +kernel, by decide +kernel, ?_⟩
  rintro ⟨hp, -, -, asked, -, -, -, -, -, -, -, -, hlookup, -⟩
  rw [hlookups, List.mem_singleton] at hlookup
  cases hlookup

/-- Two connections that name one nameserver are both given its answer. -/
theorem nameserver_answers_shared :
    let o := run ([.connect "a" "dns://8.8.8.8/svc:80"] ++
      List.replicate 5 (.background (.go 0)) ++
      [.connect "b" "dns://8.8.8.8/svc:80"] ++ List.replicate 3 (.background (.go 1)))
      (start .standard ⟨[("svc", [⟨.zero, .ips ["2.2.2.2"]⟩])]⟩ true fun _ => 0.0)
    o.AnswersBy .standard (.nameserver "8.8.8.8:53") "svc:80" [⟨"2.2.2.2:80"⟩] := by
  intro o
  have hwatches : o.connector.exchange.watches =
      [⟨0, ⟨"svc:80", "svc", "80", .nameserver "8.8.8.8:53", .ofSecs 5⟩, ⟨[3, 2, 0]⟩, 0, .parked,
        false⟩,
      ⟨1, ⟨"svc:80", "svc", "80", .nameserver "8.8.8.8:53", .ofSecs 5⟩, ⟨[5, 2, 0]⟩, 1, .idle,
        false⟩] := by
    decide +kernel
  have hsplit : o.journal = [] ++ ⟨1, ⟨"svc:80", "svc", "80", .nameserver "8.8.8.8:53", .ofSecs 5⟩,
      0, .publishes [⟨"2.2.2.2:80"⟩]⟩ :: o.journal.tail := by
    decide +kernel
  have hauthority : (⟨"dns", some "8.8.8.8:53", "svc:80", "svc", "80"⟩ : Target).authority =
      some "8.8.8.8:53" := rfl
  obtain ⟨-, -, hpublished⟩ := nameserver_answers .standard _ _ _ (n := 1)
    (by rw [hwatches]; rfl) rfl hauthority
  obtain ⟨store, -, -, hall⟩ := hpublished [] _ _ _ hsplit rfl rfl (by decide +kernel)
  refine hall fun m u hu _ => ?_
  rw [hwatches] at hu
  rcases List.mem_cons.mp (List.mem_of_getElem? hu) with rfl | hlast
  · rfl
  · rw [List.mem_singleton.mp hlast]

end Dialer.Office
