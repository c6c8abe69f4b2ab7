import LintPool.Number.Binary64
import LintPool.Text.Bytes

/-!
# Sizes in bytes

A size is written in the largest decimal unit that fits into it, with one place below ten units and
none from there on. It is computed in binary floating point: the quotient is rounded to tenths, a
half upwards, and tenths to whole units, a half to the even neighbour.

## Main definitions

* `LintPool.ByteSize.render` : the text of a size.
-/

namespace LintPool.ByteSize

/-- The units above a byte, each with the least size that is written in it. The exponent of the unit
comes from a quotient of logarithms, which reaches five and six a little before the unit is full. -/
def units : List (Nat × Nat × String) :=
  [(6, 999999999999995072, "EB"), (5, 999999999999996, "PB"), (4, 1000000000000, "TB"),
    (3, 1000000000, "GB"), (2, 1000000, "MB"), (1, 1000, "kB")]

/-- The unit for a size: its size in bytes, and its name. -/
def unitFor (size : Nat) : Nat × String :=
  match units.find? (fun u => u.2.1 ≤ size) with
  | some (exponent, _, name) => (Nat.pow 1000 exponent, name)
  | none => (1, "B")

/-- The tenths in the quotient of a size and a unit. -/
def tenths (size unit : Nat) : Nat :=
  let result := do
    let size ← Binary64.ofNat? size
    let unit ← Binary64.ofNat? unit
    let ten ← Binary64.ofNat? 10
    let half ← Binary64.ofRatio? 1 2
    let quotient ← size.div? unit
    let scaled ← quotient.mul? ten
    scaled.add? half
  (result.map Binary64.truncate).getD 0

/-- The text of a size. -/
def render (size : Nat) : Bytes :=
  if size < 10 then Bytes.natural size ++ utf8 " B"
  else
    let (unit, name) := unitFor size
    let n := tenths size unit
    let value :=
      if n < 100 then Bytes.natural (n / 10) ++ byte '.' :: Bytes.natural (n % 10)
      else Bytes.natural (Binary64.roundDiv n 10)
    value ++ byte ' ' :: utf8 name

end LintPool.ByteSize
