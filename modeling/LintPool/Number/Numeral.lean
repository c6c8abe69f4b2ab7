import LintPool.Number.Binary64
import LintPool.Text.Bytes

/-!
# Numerals

Reading the numerals of settings: signed integers in several bases and decimal fractions.

## Main definitions

* `LintPool.Numeral.digits?` : the value of digits in a base.
* `LintPool.Numeral.integer?` : a signed decimal integer of 64 bits.
* `LintPool.Numeral.literal?` : a signed integer whose base is told by its beginning.
* `LintPool.Numeral.argument` : a signed integer on a command line.
* `LintPool.Numeral.Decimal` : a decimal fraction, and its nearest binary value.
-/

namespace LintPool.Numeral

/-! ## Integers -/

/-- The value of a digit in bases up to 16. -/
def digit? (base : Nat) (b : UInt8) : Option Nat := do
  let d ← Bytes.hexValue? b
  if d < base then some d else none

/-- The value of digits in a base, with `n` for the digits before them. -/
def digitsFrom? (base n : Nat) : Bytes → Option Nat
  | [] => some n
  | b :: s => do
    let d ← digit? base b
    digitsFrom? base (n * base + d) s

/-- The value of one or more digits in a base. -/
def digits? (base : Nat) (s : Bytes) : Option Nat :=
  if s.isEmpty then none else digitsFrom? base 0 s

/-- Whether a number has a sign in front, which one, and what follows: true for a minus. -/
def sign (s : Bytes) : Bool × Bytes :=
  match s with
  | b :: rest =>
    if b = byte '-' then (true, rest) else if b = byte '+' then (false, rest) else (false, s)
  | [] => (false, [])

/-- A number with a sign, if it fits in 64 bits. -/
def signed? (negative : Bool) (n : Nat) : Option Int :=
  if negative then (if n ≤ Nat.pow 2 63 then some (-(n : Int)) else none)
  else if n < Nat.pow 2 63 then some n else none

/-- An integer of 64 bits in a given base, with or without a sign. -/
def inBase? (base : Nat) (s : Bytes) : Option Int := do
  let (negative, s) := sign s
  let n ← digits? base s
  signed? negative n

/-- A decimal integer of 64 bits, with or without a sign. -/
def integer? (s : Bytes) : Option Int := inBase? 10 s

/-- A number whose base is told by its beginning: `0x`, `0o` and `0b`, or a bare zero for base 8. -/
def based? (s : Bytes) : Option Nat :=
  match s with
  | a :: b :: c :: rest =>
    if a = byte '0' then
      let mark := Bytes.lowerByte b
      if mark = byte 'x' then digits? 16 (c :: rest)
      else if mark = byte 'o' then digits? 8 (c :: rest)
      else if mark = byte 'b' then digits? 2 (c :: rest)
      else digitsFrom? 8 0 (b :: c :: rest)
    else digits? 10 s
  | a :: rest => if a = byte '0' then digitsFrom? 8 0 rest else digits? 10 s
  | [] => none

/-- A signed integer of 64 bits whose base is told by its beginning. -/
def literal? (s : Bytes) : Option Int := do
  let (negative, s) := sign s
  let n ← based? s
  signed? negative n

/-- Why a text is no integer. -/
inductive IntegerError where
  | malformed
  | outOfRange
  deriving DecidableEq

/-- What a message says is wrong. -/
def IntegerError.reason : IntegerError → Bytes
  | .malformed => utf8 "invalid syntax"
  | .outOfRange => utf8 "value out of range"

/-- The value of digits in a base, with `n` for the digits before them. Underscores are passed over.
The first digit that is none, or that makes the number too large for 64 bits, decides about the
error. -/
def spacedDigits (base n : Nat) : Bytes → Except IntegerError Nat
  | [] => .ok n
  | b :: s =>
    if b = byte '_' then spacedDigits base n s
    else
      match digit? base b with
      | none => .error .malformed
      | some d =>
        let m := n * base + d
        if m < Nat.pow 2 64 then spacedDigits base m s else .error .outOfRange

/-- Whether every underscore stands between digits. `digitBefore` says whether a digit or the mark
of a base comes before. -/
def underscoresOk (digitBefore : Bool) : Bytes → Bool
  | [] => true
  | b :: s =>
    if b = byte '_' then
      digitBefore && !s.isEmpty && s.head? != some (byte '_') && underscoresOk false s
    else underscoresOk true s

/-- The base of a number, told by its beginning; whether there is a mark for it, and the digits. -/
def splitBase (s : Bytes) : Nat × Bool × Bytes :=
  match s with
  | a :: b :: c :: rest =>
    if a = byte '0' then
      let mark := Bytes.lowerByte b
      if mark = byte 'x' then (16, true, c :: rest)
      else if mark = byte 'o' then (8, true, c :: rest)
      else if mark = byte 'b' then (2, true, c :: rest)
      else (8, true, b :: c :: rest)
    else (10, false, s)
  | a :: rest => if a = byte '0' then (8, true, rest) else (10, false, s)
  | [] => (10, false, [])

/-- A signed integer of 64 bits as it is given on a command line: its base is told by its beginning,
and underscores may stand between digits. -/
def argument (s : Bytes) : Except IntegerError Int :=
  let (negative, s) := sign s
  if s.isEmpty then .error .malformed
  else
    let (base, marked, digits) := splitBase s
    match spacedDigits base 0 digits with
    | .error e => .error e
    | .ok n =>
      if !underscoresOk marked digits then .error .malformed
      else
        match signed? negative n with
        | some n => .ok n
        | none => .error .outOfRange

/-- An unsigned integer of 64 bits whose base is told by its beginning. -/
def unsigned? (s : Bytes) : Option Nat := do
  let n ← based? s
  if n < Nat.pow 2 64 then some n else none

/-! ## Decimal fractions -/

/-- The number `digits / 10 ^ places * 10 ^ exponent`. -/
structure Decimal where
  negative : Bool := false
  digits : Nat
  places : Nat
  exponent : Int := 0

namespace Decimal

/-- Digits with or without a point among them, and what follows. There is at least one digit. -/
def mantissa? (s : Bytes) : Option (Nat × Nat × Bytes) :=
  let whole := s.takeWhile Bytes.isDigit
  let rest := s.dropWhile Bytes.isDigit
  let (fraction, rest) :=
    match rest with
    | b :: tail =>
      if b = byte '.' then (tail.takeWhile Bytes.isDigit, tail.dropWhile Bytes.isDigit)
      else ([], rest)
    | [] => ([], rest)
  if whole.isEmpty && fraction.isEmpty then none
  else some (Bytes.digitsValue (whole ++ fraction), fraction.length, rest)

/-- The exponent that makes up a whole text; zero for no text. -/
def exponent? (s : Bytes) : Option Int :=
  match s with
  | [] => some 0
  | b :: rest =>
    if Bytes.lowerByte b = byte 'e' then do
      let (negative, digits) := sign rest
      let n ← digits? 10 digits
      return if negative then -(n : Int) else n
    else none

/-- A decimal fraction that makes up a whole text. -/
def parse? (s : Bytes) : Option Decimal := do
  let (negative, s) := sign s
  let (digits, places, rest) ← mantissa? s
  let exponent ← exponent? rest
  return { negative, digits, places, exponent }

/-- The magnitude as the nearest binary value; none if it is too large. Far outside of the range of
the format nothing is computed. -/
def magnitude? (d : Decimal) : Option Binary64 :=
  let e : Int := d.exponent - d.places
  let top : Int := (d.digits.log2 : Int) / 3 + 1 + e
  if d.digits = 0 ∨ top < -400 then some { significand := 0, exponent := 0 }
  else if 400 < (d.digits.log2 : Int) / 4 + e then none
  else
    match e with
    | .ofNat k => Binary64.ofRatio? (d.digits * Nat.pow 10 k) 1
    | .negSucc k => Binary64.ofRatio? d.digits (Nat.pow 10 (k + 1))

end Decimal

end LintPool.Numeral
