import LintPool.Duration
import LintPool.Number.Numeral

/-!
# Reading durations

A duration is written as one or more numbers with units, such as `1h30m` or `1.5s`. A fraction is
scaled to its unit in binary floating point and cut off below a nanosecond.

## Main definitions

* `LintPool.Duration.parse?` : the duration of a text.
-/

namespace LintPool.Duration

/-- The units by name, in nanoseconds. The sign of the micro units comes in two spellings. -/
def units : List (Bytes × Nat) :=
  [(utf8 "ns", 1), (utf8 "us", 1000), (utf8 "µs", 1000), (utf8 "μs", 1000), (utf8 "ms", 1000000),
    (utf8 "s", 1000000000), (utf8 "m", 60000000000), (utf8 "h", 3600000000000)]

/-- The greatest magnitude. -/
def limit : Nat := Nat.pow 2 63

/-- A fraction as far as it counts: its leading digits while their value stays below the limit, and
how many they are. -/
def fractionDigits (value places : Nat) : Bytes → Nat × Nat
  | [] => (value, places)
  | b :: s =>
    let next := value * 10 + Bytes.digitValue b
    if (limit - 1) / 10 < value ∨ limit < next then (value, places)
    else fractionDigits next (places + 1) s

/-- A fraction of a unit, in nanoseconds. -/
def scaleFraction (value places unit : Nat) : Nat :=
  Option.getD
    (do
      let f ← Binary64.ofNat? value
      let u ← Binary64.ofNat? unit
      let s ← Binary64.ofNat? (Nat.pow 10 places)
      let q ← Binary64.div? u s
      let p ← Binary64.mul? f q
      return p.truncate)
    0

/-- Whether a byte can be part of a number. -/
def isNumberByte (b : UInt8) : Bool := Bytes.isDigit b || b == byte '.'

/-- The number at the head of a text, and what follows it: the digits before and, if there is a
point, behind it. -/
def number? (s : Bytes) : Option (Bytes × Bytes × Bytes) :=
  let whole := s.takeWhile Bytes.isDigit
  let rest := s.dropWhile Bytes.isDigit
  let (fraction, rest) :=
    match rest with
    | b :: tail =>
      if b = byte '.' then (tail.takeWhile Bytes.isDigit, tail.dropWhile Bytes.isDigit)
      else ([], rest)
    | [] => ([], rest)
  if whole.isEmpty && fraction.isEmpty then none else some (whole, fraction, rest)

/-- A number with its unit at the head of a text, in nanoseconds, and what follows it. -/
def term? (s : Bytes) : Option (Nat × Bytes) := do
  let (whole, fraction, rest) ← number? s
  let name := rest.takeWhile (!isNumberByte ·)
  let unit ← units.lookup name
  let v := Bytes.digitsValue whole
  if limit / unit < v then none
  let (value, places) := fractionDigits 0 0 fraction
  let v := v * unit + (if value = 0 then 0 else scaleFraction value places unit)
  if limit < v then none
  return (v, rest.dropWhile (!isNumberByte ·))

/-- The sum of the terms of a text, of which there are at most `fuel`, on top of `total`. -/
def terms? (fuel total : Nat) (s : Bytes) : Option Nat :=
  if s.isEmpty then some total
  else
    match fuel with
    | 0 => none
    | fuel + 1 => do
      let (v, rest) ← term? s
      if limit < total + v then none
      terms? fuel (total + v) rest

/-- The duration of a text. A bare zero needs no unit. -/
def parse? (s : Bytes) : Option Duration := do
  let (negative, s) := Numeral.sign s
  if s = utf8 "0" then return 0
  if s.isEmpty then none
  let total ← terms? s.length 0 s
  if negative then return Int64.ofInt (-(total : Int))
  else if total < limit then return Int64.ofNat total
  else none

end LintPool.Duration
