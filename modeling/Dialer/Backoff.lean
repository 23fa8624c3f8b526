import Dialer.Duration.Fraction
import Dialer.Duration.Text

/-!
# Exponential backoff

The delay before the retry with index `k` is `base * 2 ^ k`, but never more than
`max`. The index has 32 bits: an index beyond the width of a 32-bit word, or a product
out of range, also gives `max`.

A generator (`Backoff`) hands out these delays one after another. Its index stops at
the first delay that has reached the cap, which is soon enough to never overflow.
-/

namespace Dialer

/-- Why two bounds do not make a backoff. -/
inductive BackoffError where
  | zeroBase
  | zeroMax
  | maxBelowBase (base max : Duration)
deriving DecidableEq

namespace BackoffError

/-- The name of an error's variant. -/
def variant : BackoffError → String
  | .zeroBase => "ZeroBase"
  | .zeroMax => "ZeroMax"
  | .maxBelowBase _ _ => "MaxBelowBase"

/-- The message of an error. -/
def message : BackoffError → String
  | .zeroBase => "backoff base delay must be positive"
  | .zeroMax => "backoff max delay must be positive"
  | .maxBelowBase base max =>
    "backoff max delay " ++ max.render ++ " is smaller than base delay " ++ base.render

end BackoffError

/-- A generator of delays. -/
structure Backoff where
  base : Duration
  max : Duration
  /-- The index of the next delay. -/
  index : UInt32
deriving DecidableEq

namespace Backoff

/-- The delay with a given index. -/
def delay (index : UInt32) (base max : Duration) : Duration :=
  if index < 32 then
    match base.scale? (1 <<< index.toNat) with
    | some d => if d ≤ max then d else max
    | none => max
  else
    max

/-- A generator that begins at the base. -/
def make (base max : Duration) : Except BackoffError Backoff :=
  if base.isZero then .error .zeroBase
  else if max.isZero then .error .zeroMax
  else if max < base then .error (.maxBelowBase base max)
  else .ok ⟨base, max, 0⟩

/-- The next delay, and the generator after it. -/
def next (b : Backoff) : Duration × Backoff :=
  let d := delay b.index b.base b.max
  (d, if d < b.max then { b with index := b.index + 1 } else b)

/-- A generator with the same bounds that begins at the base again. -/
def restart (b : Backoff) : Backoff :=
  { b with index := 0 }

/-- The next `count` delays, and the generator after them. -/
def take : Nat → Backoff → List Duration × Backoff
  | 0, b => ([], b)
  | count + 1, b =>
    let (d, b) := b.next
    let (rest, b) := take count b
    (d :: rest, b)

end Backoff

/-!
## Jitter

A delay may be lengthened by a random part of itself, never by more than `ratio` of it
and never by more than all of it. The random draw, between zero and one, is an argument.
-/

namespace Backoff

/-- The part of a delay that jitter may add to it. A ratio that is no number counts as
one. -/
def jitterPart (ratio : Float) : Float :=
  if ratio < 1.0 then ratio else 1.0

/-- A delay lengthened by `draw` of the part that the ratio allows, if that is a duration. -/
def jittered? (d : Duration) (ratio draw : Float) : Option Duration :=
  if ratio ≤ 0.0 || d.isZero then some d
  else d.lengthened? (jitterPart ratio * draw)

/-- A delay lengthened by `draw` of the part that the ratio allows; the longest duration stands in
for one out of range. -/
def jittered (d : Duration) (ratio draw : Float) : Duration :=
  if ratio ≤ 0.0 || d.isZero then d
  else d.lengthened (jitterPart ratio * draw)

theorem jittered?_getD (d : Duration) (ratio draw : Float) :
    (jittered? d ratio draw).getD .longest = jittered d ratio draw := by
  unfold jittered? jittered
  split
  · rfl
  · exact Duration.ofNanos?_getD _

/-- Without jitter a delay is not lengthened. -/
theorem jittered?_of_nonpos {ratio : Float} (h : ratio ≤ 0.0) (d : Duration) (draw : Float) :
    jittered? d ratio draw = some d := by
  simp [jittered?, h]

end Backoff

end Dialer
