import LintPool.Text.Bytes

/-!
# Grouped numbers

Counts are written with a comma between every three digits.

## Main definitions

* `LintPool.Bytes.grouped` : the grouped decimal form of an integer.
-/

namespace LintPool.Bytes

/-- Puts a comma before every three digits but the first ones. The digits are given from the last to
the first, and so is the result. -/
def group : (digits : Bytes) → Bytes
  | a :: b :: c :: d :: rest => a :: b :: c :: byte ',' :: group (d :: rest)
  | digits => digits

/-- The decimal form of an integer, with commas between groups of three digits. -/
def grouped : Int → Bytes
  | .ofNat n => (group (natural n).reverse).reverse
  | .negSucc n => byte '-' :: (group (natural (n + 1)).reverse).reverse

end LintPool.Bytes
