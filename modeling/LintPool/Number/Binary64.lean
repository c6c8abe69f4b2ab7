/-!
# Binary64 arithmetic

Sizes and durations with a fraction are computed in the 64-bit binary floating point format. This
module has its finite values that are not negative, as exact dyadic numbers, and correctly rounded
operations on them.

## Main definitions

* `LintPool.Binary64` : a finite value.
* `LintPool.Binary64.ofRatio?` : the value nearest to a ratio; none if it is too large for the
  format.
* `LintPool.Binary64.add?`, `LintPool.Binary64.mul?`, `LintPool.Binary64.div?` : sum, product and
  quotient.
* `LintPool.Binary64.truncate` : the integral part.
-/

namespace LintPool

/-- The value `significand * 2 ^ exponent`. -/
structure Binary64 where
  significand : Nat
  exponent : Int
  deriving DecidableEq

namespace Binary64

/-- The number of bits of a significand. -/
def precision : Nat := 53

/-- The least exponent. -/
def minExponent : Int := -1074

/-- The numerator and denominator of `num / den / 2 ^ e`. -/
def scale (num den : Nat) (e : Int) : Nat × Nat :=
  match e with
  | .ofNat k => (num, den * Nat.pow 2 k)
  | .negSucc k => (num * Nat.pow 2 (k + 1), den)

/-- The natural number nearest to `num / den`; a half goes to the even neighbour. -/
def roundDiv (num den : Nat) : Nat :=
  let q := num / den
  let r := num % den
  if 2 * r < den then q
  else if den < 2 * r then q + 1
  else if q % 2 = 0 then q else q + 1

/-- The exponent at which `num / den` has a significand of full precision, as far as the format has
one. -/
def exponentFor (num den : Nat) : Int :=
  let guess : Int := (num.log2 : Int) - den.log2 - precision
  let (n, d) := scale num den guess
  max minExponent (if n < d * Nat.pow 2 precision then guess else guess + 1)

/-- The value nearest to the ratio `num / den`, a half going to the even significand. None if it is
too large for the format. -/
def ofRatio? (num den : Nat) : Option Binary64 :=
  if num = 0 then some { significand := 0, exponent := 0 }
  else
    let e := exponentFor num den
    let (n, d) := scale num den e
    let m := roundDiv n d
    let (n, d) := scale m 1 (1024 - e)
    if n < d then some { significand := m, exponent := e } else none

/-- The numerator and denominator of a value. -/
def ratio (x : Binary64) : Nat × Nat :=
  match x.exponent with
  | .ofNat k => (x.significand * Nat.pow 2 k, 1)
  | .negSucc k => (x.significand, Nat.pow 2 (k + 1))

/-- The value nearest to a natural number. -/
def ofNat? (n : Nat) : Option Binary64 := ofRatio? n 1

/-- The sum of two values. -/
def add? (x y : Binary64) : Option Binary64 :=
  ofRatio? (x.ratio.1 * y.ratio.2 + y.ratio.1 * x.ratio.2) (x.ratio.2 * y.ratio.2)

/-- The product of two values. -/
def mul? (x y : Binary64) : Option Binary64 :=
  ofRatio? (x.ratio.1 * y.ratio.1) (x.ratio.2 * y.ratio.2)

/-- The quotient of two values, the second of which is not zero. -/
def div? (x y : Binary64) : Option Binary64 :=
  ofRatio? (x.ratio.1 * y.ratio.2) (x.ratio.2 * y.ratio.1)

/-- The integral part of a value. -/
def truncate (x : Binary64) : Nat := x.ratio.1 / x.ratio.2

end Binary64

end LintPool
