import Dialer.Proofs.Resolver.Provenance
import Mathlib.Algebra.Ring.Nat

/-!
# What is counted of resolution

A step of a loop counts what it does: `Loop.step_counted` reads its effect on the metrics off its
deeds, as `Loop.step_told` does for all else. A cycle that has a result counts it once, whether it
was served, looked up or failed; an answer counts its entries that are no IP; and whoever edits the
cache keeps its gauge.

For the cache the balance is in one place (`Edit.size_apply`): what is there afterwards and what was
removed is what was there before and what is new.
-/

namespace Dialer

/-- Is it one of the readings that are kept of resolution and the cache? -/
def Metric.isOfResolution : Metric → Bool
  | .resolutions _ | .lookupFailures | .droppedAddresses | .cacheClears | .cacheEntries => true
  | .breakerTransitions _ _ | .breakerRejections _ | .retries => false

namespace Metrics

/-- The sets that the four sources produced, and the lookups that failed. -/
def results (ms : Metrics) : Nat :=
  ([.cache, .lookup, .literal, .passthrough].map fun source =>
    ms.count (.resolutions source)).sum + ms.count .lookupFailures

variable (ms : Metrics)

theorem results_resolution (source : Source) :
    (ms.tally (.resolutions source)).results = ms.results + 1 := by
  cases source <;> simp [results, count_tally] <;> omega

theorem results_failure : (ms.tally .lookupFailures).results = ms.results + 1 := by
  simp [results, count_tally]
  omega

theorem results_add_dropped (n : Nat) : (ms.add .droppedAddresses n).results = ms.results := by
  simp [results, count_add]

theorem results_add_clears (n : Nat) : (ms.add .cacheClears n).results = ms.results := by
  simp [results, count_add]

theorem results_set_entries (n : Nat) : (ms.set .cacheEntries n).results = ms.results := by
  simp [results, count_set_ne]

/-- What is counted elsewhere is no result. -/
theorem results_elsewhere {m : Metric} (h : m.isOfResolution = false) :
    (ms.tally m).results = ms.results := by
  cases m with
  | breakerTransitions => simp [results, count_tally]
  | breakerRejections => simp [results, count_tally]
  | retries => simp [results, count_tally]
  | _ => cases h

end Metrics

namespace AddressCache

theorem length_store (key : String) (addresses : List Address)
    (entries : List (String × List Address)) :
    (store key addresses entries).length =
      entries.length + if entries.lookup key = none then 1 else 0 := by
  induction entries with
  | nil => rfl
  | cons entry rest ih =>
      obtain ⟨k, old⟩ := entry
      rw [store, List.lookup_cons]
      by_cases hk : k = key
      · simp [hk]
      · rw [if_neg hk, beq_false_of_ne (Ne.symm hk), List.length_cons, List.length_cons, ih]
        exact Nat.add_right_comm ..

theorem size_put (c : AddressCache) (key : String) (addresses : List Address) :
    (c.put key addresses).size = c.size + if c.get? key = none then 1 else 0 :=
  length_store key addresses c.entries

end AddressCache

namespace Resolver

/-- What someone does to the cache. -/
inductive Edit where
  | put (key : String) (addresses : List Address)
  | clear
deriving DecidableEq

namespace Edit

def apply : Edit → AddressCache → AddressCache
  | .put key addresses, c => c.put key addresses
  | .clear, _ => .empty

/-- How many entries it removes. -/
def removed : Edit → AddressCache → Nat
  | .put _ _, _ => 0
  | .clear, c => c.size

/-- How many entries it adds: one if it puts something under a key that is absent. -/
def arrived : Edit → AddressCache → Nat
  | .put key _, c => if c.get? key = none then 1 else 0
  | .clear, _ => 0

/-- **The balance of an edit.** -/
theorem size_apply (e : Edit) (c : AddressCache) :
    (e.apply c).size + e.removed c = c.size + e.arrived c := by
  cases e with
  | put key addresses => exact c.size_put key addresses
  | clear => exact Nat.zero_add c.size

/-- The cache after some edits of an empty one, the latest first. -/
def replay (edits : List Edit) : AddressCache :=
  edits.foldr apply .empty

/-- How many entries came in: the puts under a key that was absent at that moment. -/
def arrivals : List Edit → Nat
  | [] => 0
  | e :: earlier => arrivals earlier + e.arrived (replay earlier)

end Edit

/-- What an edit of the cache, if there is one, does to the cache and to the readings kept of it. -/
structure Edited (e : Option Edit) (s s' : Shared) : Prop where
  cache : s'.cache = e.elim s.cache (·.apply s.cache)
  clears : s'.metrics.count .cacheClears =
    s.metrics.count .cacheClears + e.elim 0 (·.removed s.cache)
  gauge : s'.metrics.reading? .cacheEntries =
    if e.isSome then some s'.cache.size else s.metrics.reading? .cacheEntries

/-- What is counted from one state to another. -/
structure Account (e : Option Edit) (results dropped : Nat) (s s' : Shared) : Prop where
  results : s'.metrics.results = s.metrics.results + results
  dropped : s'.metrics.count .droppedAddresses = s.metrics.count .droppedAddresses + dropped
  edited : Edited e s s'

section Account

variable (s : Shared)

/-- What changes neither the metrics nor the cache. -/
theorem account_aside {s' : Shared} (hmetrics : s'.metrics = s.metrics)
    (hcache : s'.cache = s.cache) : Account none 0 0 s s' where
  results := by rw [hmetrics, Nat.add_zero]
  dropped := by rw [hmetrics, Nat.add_zero]
  edited := ⟨hcache, by rw [hmetrics]; rfl, by rw [hmetrics]; rfl⟩

/-- A set is produced. -/
theorem account_resolution (source : Source) :
    Account none 1 0 s { s with metrics := s.metrics.tally (.resolutions source) } where
  results := s.metrics.results_resolution source
  dropped := by simp [Metrics.count_tally]
  edited := ⟨rfl, by simp [Metrics.count_tally], by simp [Metrics.tally, Metrics.reading?_add]⟩

theorem account_failure :
    Account none 1 0 s { s with metrics := s.metrics.tally .lookupFailures } where
  results := s.metrics.results_failure
  dropped := by simp [Metrics.count_tally]
  edited := ⟨rfl, by simp [Metrics.count_tally], by simp [Metrics.tally, Metrics.reading?_add]⟩

theorem account_dropped (n : Nat) : Account none 0 n s (s.count .droppedAddresses n) := by
  by_cases hn : n = 0
  · subst hn
    exact account_aside s rfl rfl
  · have hcount : s.count .droppedAddresses n =
        { s with metrics := s.metrics.add .droppedAddresses n } := by
      simp [Shared.count, hn]
    rw [hcount]
    exact {
      results := s.metrics.results_add_dropped n
      dropped := by simp [Metrics.count_add]
      edited := ⟨rfl, by simp [Metrics.count_add], by simp [Metrics.reading?_add]⟩ }

theorem account_store (key : String) (addresses : List Address) :
    Account (some (.put key addresses)) 0 0 s (s.store key addresses) where
  results := s.metrics.results_set_entries _
  dropped := s.metrics.count_set_ne (by simp) _
  edited := {
    cache := rfl
    clears := s.metrics.count_set_ne (by simp) _
    gauge := by simp [Shared.store, Metrics.reading?_set] }

theorem account_clear : Account (some .clear) 0 0 s s.clear where
  results := (Metrics.results_set_entries _ 0).trans (s.metrics.results_add_clears _)
  dropped := by simp [Shared.clear, Metrics.count_set_ne, Metrics.count_add]
  edited := {
    cache := rfl
    clears := by simp [Shared.clear, Metrics.count_set_ne, Metrics.count_add, Edit.removed]
    gauge := by simp [Shared.clear, Metrics.reading?_set, AddressCache.size, AddressCache.empty] }

/-- What is counted elsewhere is not counted here. -/
theorem account_elsewhere {m : Metric} (h : m.isOfResolution = false) (directory : Directory) :
    Account none 0 0 s { s with metrics := s.metrics.tally m, directory } := by
  have hne {k : Metric} (hk : k.isOfResolution = true) : k ≠ m := by
    rintro rfl
    rw [h] at hk
    cases hk
  have hdropped : Metric.droppedAddresses ≠ m := hne rfl
  have hclears : Metric.cacheClears ≠ m := hne rfl
  have hentries : Metric.cacheEntries ≠ m := hne rfl
  exact {
    results := s.metrics.results_elsewhere h
    dropped := by simp [Metrics.count_tally, hdropped]
    edited := ⟨rfl, by simp [Metrics.count_tally, hclears],
      by simp [Metrics.tally, Metrics.reading?_add, hentries]⟩ }

variable {s} {s' s'' : Shared} {e : Option Edit} {results results' dropped dropped' : Nat}

/-- Before an edit, something else may be counted. -/
theorem Account.trans (h : Account none results dropped s s')
    (h' : Account e results' dropped' s' s'') :
    Account e (results + results') (dropped + dropped') s s'' := by
  obtain ⟨hresults, hdropped, hcache, hclears, hgauge⟩ := h
  obtain ⟨hresults', hdropped', hcache', hclears', hgauge'⟩ := h'
  simp only [Option.elim_none, Nat.add_zero, Option.isSome_none, Bool.false_eq_true, if_false]
    at hcache hclears hgauge
  refine ⟨by omega, by omega, ?_, ?_, ?_⟩
  · rw [hcache', hcache]
  · rw [hclears', hclears, hcache]
  · rw [hgauge', hgauge]

/-- Behind an edit, a result may be counted. -/
theorem Account.resolution (h : Account e results dropped s s') (source : Source) :
    Account e (results + 1) dropped s
      { s' with metrics := s'.metrics.tally (.resolutions source) } := by
  obtain ⟨hresults, hdropped, hcache, hclears, hgauge⟩ := account_resolution s' source
  exact {
    results := by rw [hresults, h.results, Nat.add_assoc]
    dropped := by rw [hdropped, h.dropped, Nat.add_zero]
    edited := {
      cache := h.edited.cache
      clears := by rw [hclears, h.edited.clears]; rfl
      gauge := hgauge.trans h.edited.gauge } }

end Account

/-! ## The deeds tell what is counted -/

namespace Deed

/-- Is it what a cycle has for a result? -/
def isResult : Deed → Bool
  | .stores _ | .serves _ | .fails => true
  | _ => false

/-- How many of the entries that it is given are no IP. -/
def refused : Deed → Nat
  | .hears entries => entries.countP fun text => (Ip.read? text.toList).isNone
  | _ => 0

/-- What it does to the cache for a key. -/
def edit? (key : String) : Deed → Option Edit
  | .stores addresses => some (.put key addresses)
  | _ => none

end Deed

/-- What is counted is what the deeds done for an assignment tell. -/
def Counted (a : Assignment) (deeds : List Deed) (s s' : Shared) : Prop :=
  Account (deeds.findSome? (·.edit? a.key)) (deeds.countP (·.isResult))
    (deeds.map (·.refused)).sum s s'

/-- To ask changes nothing that is counted. -/
theorem Counted.behind_ask {a : Assignment} {deeds : List Deed} {s asked s' : Shared}
    {answer : LookupAnswer} (h : Counted a deeds asked s') (hmetrics : asked.metrics = s.metrics)
    (hcache : asked.cache = s.cache) : Counted a (deeds ++ [.asks answer]) s s' := by
  have hboth := (account_aside s hmetrics hcache).trans h
  simpa [Counted, Deed.edit?, Deed.isResult, Deed.refused] using hboth

/-- The entries of an answer are addresses, or are dropped. -/
theorem length_addressesOf (port : String) (entries : List String) :
    entries.length - (Watch.addressesOf port entries).length =
      (Deed.hears entries).refused := by
  have hsplit := List.length_eq_countP_add_countP (fun text : String =>
    (Ip.read? text.toList).isSome) (l := entries)
  have hlength : (Watch.addressesOf port entries).length =
      entries.countP fun text => (Ip.read? text.toList).isSome := by
    rw [Watch.addressesOf, List.length_filterMap_eq_countP]
    exact List.countP_congr fun text _ => by rw [Address.isSome_ofIp?]
  simp only [Bool.not_eq_true, Option.isSome_eq_false_iff] at hsplit
  simp only [Deed.refused]
  have hnone : (entries.countP fun text => decide ((Ip.read? text.toList).isNone = true)) =
      entries.countP fun text => (Ip.read? text.toList).isNone :=
    List.countP_congr fun text _ => by simp
  omega

namespace Loop

variable {l : Loop} {s : Shared}

theorem fail_counted (l : Loop) (s : Shared) :
    Counted l.watch.assignment [.fails] s (l.fail s).2 :=
  account_failure s

theorem conclude_counted (l : Loop) (s : Shared) (finding : Finding) :
    Counted l.watch.assignment (l.endings finding) s (l.conclude s finding).2 := by
  cases finding with
  | ips entries =>
      have hdropped := account_dropped s (entries.length -
        (Watch.addressesOf l.watch.assignment.port entries).length)
      have hstored := hdropped.trans (account_store _ l.watch.assignment.key
        (Watch.addressesOf l.watch.assignment.port entries))
      have hrefused : ((l.endings (.ips entries)).map (·.refused)).sum =
          (Deed.hears entries).refused := by
        simp [endings, Deed.refused]
      unfold Counted
      rw [hrefused, ← length_addressesOf l.watch.assignment.port]
      exact hstored.resolution .lookup
  | fails error => exact l.fail_counted s
  | hangs => exact account_aside s rfl rfl

theorem alarm_same (w : Watch) (s : Shared) (due : Option Nat) :
    (w.alarm s due).metrics = s.metrics ∧ (w.alarm s due).cache = s.cache := by
  cases due with
  | none => exact ⟨rfl, rfl⟩
  | some t => exact ⟨rfl, rfl⟩

theorem Forms.counted {deeds : List Deed} {after : Loop × Shared} (h : Forms l s deeds after) :
    Counted l.watch.assignment deeds s after.2 := by
  have hask {answer : LookupAnswer} {asked s' : Shared} {deeds : List Deed}
      (hasked : s.ask l.watch.assignment.backend l.watch.assignment.host = (answer, asked))
      (hcounted : Counted l.watch.assignment deeds asked s') :
      Counted l.watch.assignment (deeds ++ [.asks answer]) s s' := by
    obtain rfl : (s.ask l.watch.assignment.backend l.watch.assignment.host).2 = asked :=
      congrArg Prod.snd hasked
    exact hcounted.behind_ask rfl rfl
  cases h with
  | serves => exact account_resolution s .cache
  | endsAtOnce hpoint answer asked hasked =>
      exact hask hasked (l.conclude_counted asked answer.finding)
  | failsAtOnce hpoint answer asked hasked => exact hask hasked (l.fail_counted asked)
  | asks hpoint answer asked hasked =>
      obtain ⟨hmetrics, hcache⟩ := alarm_same l.watch asked (Watch.answerTime s answer)
      obtain ⟨hmetrics', hcache'⟩ := alarm_same l.watch
        (l.watch.alarm asked (Watch.answerTime s answer))
        (Clock.deadline? s.now l.watch.assignment.limit)
      exact hask hasked
        (account_aside asked (hmetrics'.trans hmetrics) (hcache'.trans hcache))
  | ends hpoint lookup => exact l.conclude_counted s lookup.finding
  | fails => exact l.fail_counted s
  | _ => exact account_aside s rfl rfl

/-- **The deeds of a step tell what it counts.** -/
theorem step_counted (l : Loop) (s : Shared) :
    Counted l.watch.assignment (l.deeds s) s (l.step s).2 :=
  (l.step_forms s).counted

/-- **A result that was counted is published, or waits to be.** -/
theorem Acts.results_eq {deeds : List Deed} {l' : Loop} (h : Acts l s deeds l') (now : Nat) :
    deeds.countP (·.isResult) + l.unpublished.length =
      (deeds.filterMap (·.publication? now)).length + l'.unpublished.length := by
  cases h with
  | parks hpoint => simp [unpublished, hpoint]
  | takes hpoint wanted => simp [unpublished, hpoint]
  | serves hpoint a rest hcache =>
      simp [unpublished, hpoint, Deed.isResult, Deed.publication?]
  | misses hpoint => simp [unpublished, hpoint]
  | asks hpoint answer lookup hfinding =>
      simp [unpublished, hpoint, Deed.isResult, Deed.publication?]
  | hearsAtOnce hpoint answer entries hfinding =>
      simp [unpublished, hpoint, Deed.isResult, Deed.publication?]
  | failsAtOnce hpoint answer => simp [unpublished, hpoint, Deed.isResult, Deed.publication?]
  | hears hpoint lookup hphase entries hfinding =>
      simp [unpublished, hpoint, Deed.isResult, Deed.publication?]
  | fails hpoint lookup hphase => simp [unpublished, hpoint, Deed.isResult, Deed.publication?]
  | publishes addresses hpoint => simp [unpublished, hpoint, Deed.isResult, Deed.publication?]
  | stays hpoint => simp

end Loop

end Resolver

end Dialer
