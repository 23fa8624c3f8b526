import Dialer.Duration

/-!
# Durations as text

A duration is written in the largest of the units `s`, `ms`, `µs`, `ns` in which
its whole part is not zero. The fraction follows with its trailing zeros dropped
and is never rounded, so the text determines the duration.
-/

namespace Dialer.Duration

/-- `n` as exactly `width` decimal digits; `n` must have no more than that. -/
def padded (width n : Nat) : List Char :=
  let digits := (Nat.repr n).toList
  List.replicate (width - digits.length) '0' ++ digits

/-- The digits after the point: `width` places without their trailing zeros. -/
def fractionDigits (width n : Nat) : List Char :=
  (((padded width n).reverse).dropWhile (· == '0')).reverse

/-- A decimal number with `width` places at most; the point is left out of a whole number. -/
def decimal (whole fraction width : Nat) : String :=
  match fractionDigits width fraction with
  | [] => Nat.repr whole
  | digits => Nat.repr whole ++ "." ++ String.ofList digits

/-- The text of a duration. -/
def render (d : Duration) : String :=
  if d.secs > 0 then
    decimal d.secs d.nanos 9 ++ "s"
  else if d.nanos ≥ 1_000_000 then
    decimal (d.nanos / 1_000_000) (d.nanos % 1_000_000) 6 ++ "ms"
  else if d.nanos ≥ 1_000 then
    decimal (d.nanos / 1_000) (d.nanos % 1_000) 3 ++ "µs"
  else
    Nat.repr d.nanos ++ "ns"

end Dialer.Duration
