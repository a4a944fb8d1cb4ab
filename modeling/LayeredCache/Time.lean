/-!
# Spans of time and the clock

Instants and spans are whole nanoseconds. The clock can name only the instants below `horizon`,
so adding a very long lifetime to the present has no result; every caller that stores a deadline
has to say what happens then.

## Main definitions

* `Span`, `Instant` — nanoseconds.
* `deadline?` — the instant at which a lifetime that starts now ends.
* `Span.text` — a span in the largest unit that is not below one, as an exact decimal.
-/

set_option autoImplicit false

namespace LayeredCache

/-- A length of time in nanoseconds. -/
abbrev Span := Nat

/-- A point of time, in nanoseconds since an arbitrary origin. -/
abbrev Instant := Nat

namespace Span

/-- Whole seconds as a span. -/
def seconds (n : Nat) : Span := n * 1000000000

/-- Whole milliseconds as a span. -/
def milliseconds (n : Nat) : Span := n * 1000000

end Span

/-- The first instant that the clock cannot represent: its seconds are signed 64-bit numbers. -/
def Instant.horizon : Instant := Span.seconds 0x8000000000000000

/-- The instant at which a lifetime of `ttl` that starts at `now` ends, when the clock can
represent it. -/
def deadline? (now : Instant) (ttl : Span) : Option Instant :=
  if now + ttl < Instant.horizon then some (now + ttl) else none

namespace Span

/-- The decimal digits of `n`, padded on the left with zeros to `width`. -/
def padded (width n : Nat) : String :=
  let digits := Nat.toDigits 10 n
  String.ofList (List.replicate (width - digits.length) '0' ++ digits)

/-- The number `whole + fraction / 10 ^ places` as a decimal without trailing zeros. -/
def decimal (whole fraction places : Nat) : String :=
  if fraction = 0 then toString whole
  else
    let digits := (padded places fraction).toList.reverse.dropWhile (· == '0')
    toString whole ++ "." ++ String.ofList digits.reverse

/-- A span in seconds, milliseconds, microseconds or nanoseconds, whichever is the largest unit
that it reaches, with an exact fraction. -/
def text (t : Span) : String :=
  if 1000000000 ≤ t then decimal (t / 1000000000) (t % 1000000000) 9 ++ "s"
  else if 1000000 ≤ t then decimal (t / 1000000) (t % 1000000) 6 ++ "ms"
  else if 1000 ≤ t then decimal (t / 1000) (t % 1000) 3 ++ "µs"
  else toString t ++ "ns"

end Span

end LayeredCache
