import LintPool.Text.Bytes

/-!
# Durations

A duration is a signed 64-bit number of nanoseconds. It is shown in hours, minutes and seconds with
as many decimals as it needs, or in the largest smaller unit if it is shorter than a second.

## Main definitions

* `LintPool.Duration` : a duration.
* `LintPool.Duration.render` : its text, such as `1h2m3.5s`, `20ms` or `0s`.
* `LintPool.Duration.round` : the nearest multiple of a unit.
-/

namespace LintPool

/-- A number of nanoseconds. -/
abbrev Duration := Int64

namespace Duration

/-- A number of milliseconds. -/
def ofMillis (n : Int64) : Duration := n * 1000000

/-- A number of seconds. -/
def ofSeconds (n : Int64) : Duration := n * 1000000000

/-- A list of digits without the zeros at its end. -/
def dropZeros (digits : Bytes) : Bytes := (digits.reverse.dropWhile (· = byte '0')).reverse

/-- The decimals of `n / 10 ^ places`, for `n` below `10 ^ places`, with their point; nothing for
zero. -/
def decimals (places n : Nat) : Bytes :=
  let digits := Bytes.natural n
  let padded := List.replicate (places - digits.length) (byte '0') ++ digits
  let kept := dropZeros padded
  if kept.isEmpty then [] else byte '.' :: kept

/-- `n / 10 ^ places` in decimal. -/
def scaled (places n : Nat) : Bytes :=
  Bytes.natural (n / Nat.pow 10 places) ++ decimals places (n % Nat.pow 10 places)

/-- The text of `n` nanoseconds. -/
def renderNat (n : Nat) : Bytes :=
  if n = 0 then utf8 "0s"
  else if n < 1000 then Bytes.natural n ++ utf8 "ns"
  else if n < 1000000 then scaled 3 n ++ utf8 "µs"
  else if n < 1000000000 then scaled 6 n ++ utf8 "ms"
  else
    let minutes := n / 60000000000
    let hours := minutes / 60
    let seconds := scaled 9 (n % 60000000000) ++ utf8 "s"
    (if hours = 0 then [] else Bytes.natural hours ++ utf8 "h") ++
      (if minutes = 0 then [] else Bytes.natural (minutes % 60) ++ utf8 "m") ++ seconds

/-- The text of a duration. -/
def render (d : Duration) : Bytes :=
  if d.toInt < 0 then byte '-' :: renderNat d.toInt.natAbs else renderNat d.toInt.toNat

/-- The multiple of `unit` nearest to `d`, halves away from zero, as far as it is a duration. -/
def round (unit : Nat) (d : Duration) : Duration :=
  if unit = 0 then d
  else
    let n := d.toInt.natAbs
    let rounded := (n + unit / 2 + unit % 2) / unit * unit
    let up := if n % unit * 2 < unit then n / unit * unit else rounded
    if d.toInt < 0 then
      (if up ≤ Nat.pow 2 63 then Int64.ofInt (-up) else Int64.minValue)
    else (if up < Nat.pow 2 63 then Int64.ofNat up else Int64.maxValue)

end Duration

end LintPool
