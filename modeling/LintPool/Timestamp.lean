import LintPool.Duration

/-!
# Points in time

A point in time as it is written in events and logs: a date, a time of day to the nanosecond and the
offset from universal time. The written form has no trailing zeros in its fraction. It has four
digits for the year and two for the hours of the offset, and only what fits in there is a point in
time here: every event can be written.

## Main definitions

* `LintPool.Timestamp` : a point in time.
* `LintPool.Timestamp.origin` : the one that is not set, the start of year 1.
* `LintPool.Timestamp.parse?`, `LintPool.Timestamp.render` : the written form.
-/

namespace LintPool

/-- A date and time of day at an offset, in minutes, from universal time. The year has at most four
digits, and the offset is less than a day. -/
structure Timestamp where
  year : Nat := 1
  month : Nat := 1
  day : Nat := 1
  hour : Nat := 0
  minute : Nat := 0
  second : Nat := 0
  nanosecond : Nat := 0
  offset : Int := 0
  year_lt : year < 10000 := by decide
  offset_lt : offset.natAbs < 1440 := by decide
  deriving DecidableEq

namespace Timestamp

/-- The start of year 1. -/
def origin : Timestamp := {}

/-- A number with zeros in front, so that it has at least `width` digits. -/
def padded (width n : Nat) : Bytes :=
  let digits := Bytes.natural n
  List.replicate (width - digits.length) (byte '0') ++ digits

/-- The written form of an offset. -/
def renderOffset (offset : Int) : Bytes :=
  if offset = 0 then utf8 "Z"
  else
    let n := offset.natAbs
    (if offset < 0 then byte '-' else byte '+') ::
      (padded 2 (n / 60) ++ byte ':' :: padded 2 (n % 60))

/-- The written form of a point in time. -/
def render (t : Timestamp) : Bytes :=
  padded 4 t.year ++ byte '-' :: padded 2 t.month ++ byte '-' :: padded 2 t.day ++
    byte 'T' :: padded 2 t.hour ++ byte ':' :: padded 2 t.minute ++ byte ':' :: padded 2 t.second ++
    Duration.decimals 9 t.nanosecond ++ renderOffset t.offset

/-- A number of exactly `width` digits at the head of a text, and what follows it. -/
def number? (width : Nat) (s : Bytes) : Option (Nat × Bytes) :=
  let digits := s.take width
  if digits.length = width ∧ digits.all Bytes.isDigit then
    some (Bytes.digitsValue digits, s.drop width)
  else none

/-- What follows the character `c` at the head of a text. -/
def mark? (c : Char) : Bytes → Option Bytes
  | a :: s => if a = byte c then some s else none
  | [] => none

/-- The nanoseconds of a fraction at the head of a text, and what follows it; digits past the ninth
are dropped. -/
def fraction (s : Bytes) : Nat × Bytes :=
  match mark? '.' s with
  | none => (0, s)
  | some s =>
    let digits := s.takeWhile Bytes.isDigit
    let kept := digits.take 9
    (Bytes.digitsValue kept * Nat.pow 10 (9 - kept.length), s.dropWhile Bytes.isDigit)

/-- An offset that is a whole text. -/
def offset? (s : Bytes) : Option Int := do
  if s = utf8 "Z" then return 0
  let sign := s.head?
  let (hours, s) ← number? 2 (s.drop 1)
  let s ← mark? ':' s
  let (minutes, s) ← number? 2 s
  if s ≠ [] then none
  let n : Int := (hours * 60 + minutes : Nat)
  if sign = some (byte '+') then some n
  else if sign = some (byte '-') then some (-n)
  else none

/-- The point in time of a written form. -/
def parse? (s : Bytes) : Option Timestamp := do
  let (year, s) ← number? 4 s
  let s ← mark? '-' s
  let (month, s) ← number? 2 s
  let s ← mark? '-' s
  let (day, s) ← number? 2 s
  let s ← mark? 'T' s
  let (hour, s) ← number? 2 s
  let s ← mark? ':' s
  let (minute, s) ← number? 2 s
  let s ← mark? ':' s
  let (second, s) ← number? 2 s
  let (nanosecond, s) := fraction s
  let offset ← offset? s
  if h : year < 10000 ∧ offset.natAbs < 1440 then
    return { year, month, day, hour, minute, second, nanosecond, offset,
             year_lt := h.1, offset_lt := h.2 }
  else none

end Timestamp

end LintPool
