import LintPool.Text.Bytes

/-!
# Edit distance

How many bytes have to be added, dropped or replaced to get from one text to another.

## Main definitions

* `LintPool.Bytes.editDistance` : the distance of two texts.
-/

namespace LintPool.Bytes

/-- One row of the table of distances, from the row above it. The row above belongs to a text `s`,
the new one to `s` and the byte `a`; each has an entry for every beginning of `t`. `left` is the
entry before. -/
def nextRow (a : UInt8) (left : Nat) : (t : Bytes) → (above : List Nat) → List Nat
  | b :: t, diagonal :: up :: rest =>
    let entry := if a = b then diagonal else min (min up left) diagonal + 1
    entry :: nextRow a entry t (up :: rest)
  | _, _ => []

/-- The rows of the table for the bytes of a text, starting from the row above them. -/
def lastRow (t : Bytes) : (s : Bytes) → (above : List Nat) → List Nat
  | [], above => above
  | a :: s, above =>
    let first := above.headD 0 + 1
    lastRow t s (first :: nextRow a first t above)

/-- The least number of bytes to add, drop or replace on the way from `s` to `t`. -/
def editDistance (s t : Bytes) : Nat :=
  (lastRow t s (List.range (t.length + 1))).getLastD 0

end LintPool.Bytes
