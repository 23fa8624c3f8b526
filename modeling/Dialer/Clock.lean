import Dialer.Duration

/-!
# Points of time

A point of time is a plain `Nat`: nanoseconds since a common origin. Timers have a
resolution of one millisecond, so a timer set for an instant fires at the first
whole millisecond that is not before it (`Clock.tick`).

Instants count seconds in 64 bits with a sign, so there is a last one (`Clock.horizon`). A span
that leads beyond it is treated in three ways:

* a pause is cut to thirty years (`Clock.wake`);
* a deadline never comes (`Clock.deadline?`);
* the end of what a breaker begins and the first clear of a janitor raise (`Clock.instant?` has no
  value).
-/

namespace Dialer.Clock

/-- The instant a span after `now`. -/
def after (now : Nat) (d : Duration) : Nat :=
  now + d.toNanos

/-- The instant at which a timer set for `due` fires. -/
def tick (due : Nat) : Nat :=
  (due + 999999) / 1_000_000 * 1_000_000

/-- The instant at which a timer set to run for `d` from `now` fires. -/
def timer (now : Nat) (d : Duration) : Nat :=
  tick (after now d)

/-- The longest pause in nanoseconds: thirty years of 365 days. -/
def longestPause : Nat := 30 * 365 * 86400 * 1_000_000_000

/-- The instant at which a pause of `d` that begins at `now` is over. -/
def wake (now : Nat) (d : Duration) : Nat :=
  tick (now + min d.toNanos longestPause)

/-- Every instant comes before this point. -/
def horizon : Nat := (1 <<< 63) * 1_000_000_000

/-- The instant a span after `now`, if there is one. -/
def instant? (now : Nat) (d : Duration) : Option Nat :=
  if after now d < horizon then some (after now d) else none

/-- The instant at which a deadline `d` from `now` fires. A deadline beyond all instants never
fires. -/
def deadline? (now : Nat) (d : Duration) : Option Nat :=
  if d.secs < 1 <<< 63 then some (timer now d) else none

/-- The instant a whole number of milliseconds after the origin. -/
def ofMillis (ms : Nat) : Nat :=
  ms * 1_000_000

/-- Whole milliseconds since the origin. -/
def millis (now : Nat) : Nat :=
  now / 1_000_000

/-- A timer never fires early. -/
theorem le_tick (due : Nat) : due ≤ tick due := by
  simp only [tick]
  omega

/-- A timer fires within a millisecond. -/
theorem tick_lt (due : Nat) : tick due < due + 1_000_000 := by
  simp only [tick]
  omega

/-- A timer set for a whole millisecond fires exactly then. -/
theorem tick_ofMillis (ms : Nat) : tick (ofMillis ms) = ofMillis ms := by
  simp only [tick, ofMillis]
  omega

theorem instant?_eq_some {now due : Nat} {d : Duration} :
    instant? now d = some due ↔ due = after now d ∧ due < horizon := by
  unfold instant?
  split <;> simp_all [eq_comm]

/-- A span too long for any instant is too long for `now`. -/
theorem secs_lt_of_after_lt {now : Nat} {d : Duration} (h : after now d < horizon) :
    d.secs < 1 <<< 63 := by
  unfold after horizon Duration.toNanos at h
  omega

/-- A deadline is looked at by its span alone. As far as instants go, that is to look at the
instant it leads to. -/
theorem deadline?_eq_some_iff {now due : Nat} {d : Duration} (h : due < horizon) :
    deadline? now d = some due ↔ (instant? now d).map tick = some due := by
  unfold deadline? instant? timer
  by_cases hafter : after now d < horizon
  · rw [if_pos (secs_lt_of_after_lt hafter), if_pos hafter]
    rfl
  · -- the timer would fire beyond all instants
    have hlate : tick (after now d) ≠ due := by
      have hle := le_tick (after now d)
      omega
    simp [hafter, hlate]

/-- No whole millisecond lies between an instant and the firing of its timer. -/
theorem tick_le_of_le_ofMillis {due ms : Nat} (h : due ≤ ofMillis ms) :
    tick due ≤ ofMillis ms := by
  simp only [tick, ofMillis] at h ⊢
  omega

end Dialer.Clock
