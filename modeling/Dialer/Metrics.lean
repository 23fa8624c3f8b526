import Dialer.Breaker.State

/-!
# Metrics

The counters and gauges that the connector keeps. A reading appears with the first
touch, also one that adds nothing; readings stand in the order of their first touch.
-/

namespace Dialer

/-- Where an address set came from. -/
inductive Source where
  | cache
  | lookup
  | literal
  | passthrough
deriving DecidableEq, Repr

/-- The name of a source. -/
def Source.name : Source → String
  | .cache => "cache"
  | .lookup => "lookup"
  | .literal => "literal"
  | .passthrough => "passthrough"

/-- Something that is counted or measured. -/
inductive Metric where
  /-- Address sets produced. -/
  | resolutions (source : Source)
  /-- Lookups that failed or took too long. -/
  | lookupFailures
  /-- Entries of lookup answers that are no IP. -/
  | droppedAddresses
  /-- Entries removed by clearing the cache. -/
  | cacheClears
  /-- Entries in the cache: a gauge. -/
  | cacheEntries
  /-- State changes of a breaker. -/
  | breakerTransitions (breaker : String) (change : Transition)
  /-- Calls rejected by a breaker. -/
  | breakerRejections (breaker : String)
  /-- Retries scheduled. -/
  | retries
deriving DecidableEq, Repr

namespace Metric

/-- The published name. -/
def name : Metric → String
  | .resolutions _ => "resolver_resolutions_total"
  | .lookupFailures => "resolver_lookup_failures_total"
  | .droppedAddresses => "resolver_dropped_addresses_total"
  | .cacheClears => "address_cache_clears_total"
  | .cacheEntries => "address_cache_entries"
  | .breakerTransitions _ _ => "circuit_breaker_transitions_total"
  | .breakerRejections _ => "circuit_breaker_rejections_total"
  | .retries => "retry_attempts_total"

/-- The published labels, in their order. -/
def labels : Metric → List (String × String)
  | .resolutions source => [("source", source.name)]
  | .breakerTransitions breaker change =>
    [("name", breaker), ("from", change.source.name), ("to", change.target.name)]
  | .breakerRejections breaker => [("name", breaker)]
  | _ => []

/-- The name with the labels behind it, in braces, if there are any. -/
def series (m : Metric) : String :=
  match m.labels.map fun (key, value) => key ++ "=" ++ value with
  | [] => m.name
  | labels => m.name ++ "\x7b" ++ ",".intercalate labels ++ "\x7d"

end Metric

/-- The readings of all metrics touched so far. -/
structure Metrics where
  readings : List (Metric × Nat)
deriving DecidableEq, Repr

namespace Metrics

/-- Nothing touched yet. -/
def empty : Metrics := ⟨[]⟩

instance : Inhabited Metrics := ⟨empty⟩

/-- Changes one reading in a list, which is zero if it is not there yet. -/
def update (f : Nat → Nat) (m : Metric) : List (Metric × Nat) → List (Metric × Nat)
  | [] => [(m, f 0)]
  | (k, n) :: rest => if k = m then (k, f n) :: rest else (k, n) :: update f m rest

/-- The reading of a metric, if it was touched. -/
def reading? (ms : Metrics) (m : Metric) : Option Nat :=
  ms.readings.lookup m

/-- The reading of a metric, zero if it was not touched. -/
def count (ms : Metrics) (m : Metric) : Nat :=
  (ms.reading? m).getD 0

/-- Adds to a counter. -/
def add (ms : Metrics) (m : Metric) (n : Nat) : Metrics :=
  ⟨update (· + n) m ms.readings⟩

/-- Adds one to a counter. -/
def tally (ms : Metrics) (m : Metric) : Metrics :=
  ms.add m 1

/-- Sets a gauge. -/
def set (ms : Metrics) (m : Metric) (n : Nat) : Metrics :=
  ⟨update (fun _ => n) m ms.readings⟩

theorem lookup_cons (r : Metric × Nat) (readings : List (Metric × Nat)) (k : Metric) :
    (r :: readings).lookup k = if k = r.1 then some r.2 else readings.lookup k := by
  obtain ⟨m, n⟩ := r
  by_cases hk : k = m
  · subst hk
    rw [List.lookup_cons_self, if_pos rfl]
  · rw [List.lookup_cons, beq_false_of_ne hk, if_neg hk]

/-- Only the reading of the metric itself changes. -/
theorem lookup_update (f : Nat → Nat) (m k : Metric) (readings : List (Metric × Nat)) :
    (update f m readings).lookup k =
      if k = m then some (f ((readings.lookup m).getD 0)) else readings.lookup k := by
  induction readings with
  | nil =>
      rw [update, lookup_cons]
      rfl
  | cons r rest ih =>
      obtain ⟨r, n⟩ := r
      by_cases hr : r = m
      · subst hr
        rw [update, if_pos rfl, lookup_cons, lookup_cons, lookup_cons]
        by_cases hk : k = r <;> simp [hk]
      · rw [update, if_neg hr, lookup_cons, lookup_cons, lookup_cons, ih, if_neg (Ne.symm hr)]
        by_cases hk : k = r
        · subst hk
          simp [hr]
        · simp only [hk, if_false]

theorem reading?_add (ms : Metrics) (m k : Metric) (n : Nat) :
    (ms.add m n).reading? k = if k = m then some (ms.count m + n) else ms.reading? k :=
  lookup_update (· + n) m k ms.readings

theorem reading?_set (ms : Metrics) (m k : Metric) (n : Nat) :
    (ms.set m n).reading? k = if k = m then some n else ms.reading? k :=
  lookup_update (fun _ => n) m k ms.readings

theorem count_add (ms : Metrics) (m k : Metric) (n : Nat) :
    (ms.add m n).count k = ms.count k + if k = m then n else 0 := by
  rw [count, reading?_add]
  by_cases hk : k = m
  · subst hk
    simp
  · simp [hk, count]

theorem count_tally (ms : Metrics) (m k : Metric) :
    (ms.tally m).count k = ms.count k + if k = m then 1 else 0 :=
  ms.count_add m k 1

theorem count_set_ne (ms : Metrics) {m k : Metric} (hne : k ≠ m) (n : Nat) :
    (ms.set m n).count k = ms.count k := by
  rw [count, reading?_set, if_neg hne, count]

end Metrics

end Dialer
