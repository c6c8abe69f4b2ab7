import LintPool.Number.Binary64
import Mathlib

/-!
# Rounding to binary64

A ratio is rounded to the nearest value of the format. So what comes out differs from the ratio by
at most one part in 2 ^ 53, or by half of the least positive value. Significands have at most 53
bits, or are 2 ^ 53 itself: large values are even numbers.

## Main definitions

* `LintPool.Binary64.toRat` : the value as a rational number.
* `LintPool.Binary64.Near` : a value and what it was rounded from.

## Main results

* `LintPool.Binary64.near_of_ofRatio?` : a rounded ratio is near the ratio.
* `LintPool.Binary64.le_of_ofRatio?_eq_none` : only large ratios are too large for the format.
* `LintPool.Binary64.abs_toRat_sub_mul_le` : the error of a rounded product of rounded factors.
* `LintPool.Binary64.even_truncate` : large integral parts are even.
-/

namespace LintPool.Binary64

/-! ## Values -/

/-- The value as a rational number. -/
def toRat (x : Binary64) : ℚ := x.significand * (2 : ℚ) ^ x.exponent

section Values

variable {x : Binary64}

/-- The denominator of a value is positive. -/
lemma ratio_snd_pos (x : Binary64) : 0 < x.ratio.2 := by
  rw [ratio]
  split
  · exact Nat.one_pos
  · exact Nat.pow_pos Nat.two_pos

/-- Numerator and denominator of a value. -/
lemma ratio_div (x : Binary64) : (x.ratio.1 : ℚ) / x.ratio.2 = x.toRat := by
  obtain ⟨m, e⟩ := x
  cases e with
  | ofNat k => simp [ratio, toRat]
  | negSucc k => simp [ratio, toRat, zpow_negSucc, div_eq_mul_inv]

/-- Values are not negative. -/
lemma toRat_nonneg (x : Binary64) : 0 ≤ x.toRat := by
  rw [toRat]
  positivity

/-- The integral part of a value. -/
lemma truncate_eq_floor (x : Binary64) : x.truncate = ⌊x.toRat⌋₊ := by
  rw [truncate, ← ratio_div, Nat.floor_div_eq_div]

/-- **Large integral parts are even**, as a significand is at most 2 ^ 53. -/
theorem even_truncate (hsignificand : x.significand ≤ 2 ^ 53) (hlarge : 2 ^ 53 < x.truncate) :
    Even x.truncate := by
  obtain ⟨m, e⟩ := x
  cases e with
  | ofNat k =>
    cases k with
    | zero =>
      simp only [truncate, ratio, Nat.pow_eq, pow_zero, mul_one, Nat.div_one] at hlarge
      exact absurd hsignificand (by simpa using hlarge)
    | succ k =>
      simp only [truncate, ratio, Nat.pow_eq, Nat.div_one]
      exact (even_two.pow_of_ne_zero (Nat.succ_ne_zero k)).mul_left m
  | negSucc k =>
    have hle : m / Nat.pow 2 (k + 1) ≤ m := Nat.div_le_self _ _
    simp only [truncate, ratio] at hlarge hsignificand
    omega

end Values

/-! ## Rounding -/

section Rounding

variable {num den : Nat} {e : Int}

/-- The denominator of a scaled ratio is positive. -/
lemma scale_snd_pos (hden : 0 < den) (num : Nat) (e : Int) : 0 < (scale num den e).2 := by
  cases e with
  | ofNat k => exact Nat.mul_pos hden (Nat.pow_pos Nat.two_pos)
  | negSucc k => exact hden

/-- The value of a scaled ratio. -/
lemma scale_div (num den : Nat) (e : Int) :
    ((scale num den e).1 : ℚ) / (scale num den e).2 = num / den / (2 : ℚ) ^ e := by
  cases e with
  | ofNat k => simp [scale, div_div]
  | negSucc k => simp [scale, zpow_negSucc, div_mul_eq_mul_div]

/-- How a scaled ratio compares to a power of two. -/
lemma scale_lt_iff (hden : 0 < den) (num : Nat) (e : Int) (k : Nat) :
    (scale num den e).1 < (scale num den e).2 * 2 ^ k ↔ (num / den : ℚ) < 2 ^ (k + e) := by
  have hpos : (0 : ℚ) < (scale num den e).2 := Nat.cast_pos.mpr (scale_snd_pos hden num e)
  have hpow : (0 : ℚ) < 2 ^ e := by positivity
  calc (scale num den e).1 < (scale num den e).2 * 2 ^ k
      ↔ ((scale num den e).1 : ℚ) < 2 ^ k * (scale num den e).2 := by
        rw [mul_comm]
        exact_mod_cast Iff.rfl
    _ ↔ (num / den : ℚ) / 2 ^ e < 2 ^ k := by rw [← div_lt_iff₀ hpos, scale_div]
    _ ↔ (num / den : ℚ) < 2 ^ (k + e) := by
        rw [div_lt_iff₀ hpow, zpow_add₀ two_ne_zero, zpow_natCast]

/-- The nearest natural number is off by at most one half. -/
lemma abs_roundDiv_sub_le (hden : 0 < den) (num : Nat) :
    |(roundDiv num den : ℚ) - num / den| ≤ 1 / 2 := by
  have hpos : (0 : ℚ) < den := Nat.cast_pos.mpr hden
  have hsplit : (num / den : ℚ) = (num / den : ℕ) + (num % den : ℕ) / den := by
    field_simp
    exact_mod_cast (Nat.div_add_mod num den).symm
  have hlt : ((num % den : ℕ) : ℚ) / den < 1 :=
    (div_lt_one hpos).mpr (Nat.cast_lt.mpr (Nat.mod_lt num hden))
  have hnonneg : (0 : ℚ) ≤ (num % den : ℕ) / den := by positivity
  have hdown : 2 * (num % den) ≤ den → ((num % den : ℕ) : ℚ) / den ≤ 1 / 2 := by
    intro hle
    rw [div_le_div_iff₀ hpos two_pos]
    exact_mod_cast (by omega : num % den * 2 ≤ 1 * den)
  have hup : den ≤ 2 * (num % den) → 1 / 2 ≤ ((num % den : ℕ) : ℚ) / den := by
    intro hle
    rw [div_le_div_iff₀ two_pos hpos]
    exact_mod_cast (by omega : 1 * den ≤ num % den * 2)
  rw [hsplit, roundDiv, abs_le]
  split_ifs with hless hmore heven
  · have hle := hdown (by omega)
    constructor <;> linarith
  · have hle := hup (by omega)
    push_cast
    constructor <;> linarith
  · have hle := hdown (by omega)
    constructor <;> linarith
  · have hle := hup (by omega)
    push_cast
    constructor <;> linarith

/-- A ratio below a natural number is not rounded beyond it. -/
lemma roundDiv_le {k : Nat} (h : num < den * k) : roundDiv num den ≤ k := by
  have hlt : num / den < k := Nat.div_lt_of_lt_mul h
  rw [roundDiv]
  split_ifs <;> omega

/-! ## Exponents -/

/-- A ratio lies between powers of two that the logarithms tell. -/
lemma pow_lt_ratio_lt (hnum : 0 < num) (hden : 0 < den) :
    (2 : ℚ) ^ ((num.log2 : ℤ) - den.log2 - 1) < num / den ∧
      (num / den : ℚ) < 2 ^ ((num.log2 : ℤ) - den.log2 + 1) := by
  have hpos : (0 : ℚ) < den := Nat.cast_pos.mpr hden
  have hnum_le : (2 : ℚ) ^ num.log2 ≤ num := by exact_mod_cast Nat.log2_self_le hnum.ne'
  have hden_le : (2 : ℚ) ^ den.log2 ≤ den := by exact_mod_cast Nat.log2_self_le hden.ne'
  have hnum_lt : (num : ℚ) < 2 ^ (num.log2 + 1) := by exact_mod_cast Nat.lt_log2_self
  have hden_lt : (den : ℚ) < 2 ^ (den.log2 + 1) := by exact_mod_cast Nat.lt_log2_self
  constructor
  · rw [lt_div_iff₀ hpos]
    calc (2 : ℚ) ^ ((num.log2 : ℤ) - den.log2 - 1) * den
        < 2 ^ ((num.log2 : ℤ) - den.log2 - 1) * 2 ^ (den.log2 + 1) := by gcongr
      _ = 2 ^ num.log2 := by
        rw [← zpow_natCast, ← zpow_natCast, ← zpow_add₀ two_ne_zero]
        congr 1
        push_cast
        ring
      _ ≤ num := hnum_le
  · rw [div_lt_iff₀ hpos]
    calc (num : ℚ) < 2 ^ (num.log2 + 1) := hnum_lt
      _ = 2 ^ ((num.log2 : ℤ) - den.log2 + 1) * 2 ^ den.log2 := by
        rw [← zpow_natCast, ← zpow_natCast, ← zpow_add₀ two_ne_zero]
        congr 1
        push_cast
        ring
      _ ≤ 2 ^ ((num.log2 : ℤ) - den.log2 + 1) * den := by gcongr

/-- **The exponent for a ratio** leaves a significand of at most 53 bits, and of 53 bits unless it
is the least exponent. -/
lemma exponentFor_spec (hnum : 0 < num) (hden : 0 < den) :
    (num / den : ℚ) < 2 ^ (53 + exponentFor num den) ∧
      (exponentFor num den = minExponent ∨ 2 ^ (52 + exponentFor num den) ≤ (num / den : ℚ)) := by
  obtain ⟨hlow, hhigh⟩ := pow_lt_ratio_lt hnum hden
  let guess : ℤ := num.log2 - den.log2 - precision
  let found : ℤ := if (num / den : ℚ) < 2 ^ (53 + guess) then guess else guess + 1
  have hfound : exponentFor num den = max minExponent found := by
    have hiff := scale_lt_iff hden num guess precision
    simp only [exponentFor, found, Nat.pow_eq]
    congr 1
    exact if_congr hiff rfl rfl
  -- the guess is right or too small by one
  have hspec : (num / den : ℚ) < 2 ^ (53 + found) ∧ 2 ^ (52 + found) ≤ (num / den : ℚ) := by
    simp only [found]
    split_ifs with hlt
    · refine ⟨hlt, le_of_eq_of_le ?_ hlow.le⟩
      congr 1
      simp only [guess, precision]
      push_cast
      ring
    · refine ⟨lt_of_lt_of_eq hhigh ?_, le_of_eq_of_le ?_ (not_lt.mp hlt)⟩
      · congr 1
        simp only [guess, precision]
        push_cast
        ring
      · congr 1
        ring
  rw [hfound]
  constructor
  · refine lt_of_lt_of_le hspec.1 ?_
    gcongr
    · exact one_le_two
    · exact le_max_right _ _
  · rcases le_total found minExponent with hle | hle
    · exact .inl (max_eq_left hle)
    · right
      rw [max_eq_right hle]
      exact hspec.2

/-! ## Rounded ratios -/

/-- Half of the least positive value. -/
def halfLeast : ℚ := 2 ^ (minExponent - 1)

/-- Half of the least positive value is not negative. -/
lemma halfLeast_nonneg : 0 ≤ halfLeast := by
  rw [halfLeast]
  positivity

/-- Half of the least positive value is far below one. -/
lemma halfLeast_le : halfLeast ≤ 1 / 2 ^ 64 := by
  rw [halfLeast, one_div, ← zpow_natCast, ← zpow_neg]
  exact zpow_le_zpow_right₀ one_le_two (by decide)

/-- A value is near a number that is not negative: at most one part in 2 ^ 53 away, or half of the
least positive value. -/
def Near (x : Binary64) (q : ℚ) : Prop := |x.toRat - q| ≤ q / 2 ^ 53 + halfLeast

/-- The value that a ratio is rounded to, if the format has it. -/
def rounded (num den : Nat) : Binary64 where
  significand := roundDiv (scale num den (exponentFor num den)).1
    (scale num den (exponentFor num den)).2
  exponent := exponentFor num den

/-- A significand is at most 2 ^ 53. -/
lemma significand_rounded_le (hnum : 0 < num) (hden : 0 < den) :
    (rounded num den).significand ≤ 2 ^ 53 := by
  apply roundDiv_le
  rw [scale_lt_iff hden]
  exact_mod_cast (exponentFor_spec hnum hden).1

/-- Rounding moves a ratio by at most half of the last binary digit. -/
lemma abs_rounded_sub_le (hden : 0 < den) (num : Nat) :
    |(rounded num den).toRat - num / den| ≤ 2 ^ (exponentFor num den - 1) := by
  have hpow : (0 : ℚ) < 2 ^ exponentFor num den := by positivity
  have hround := abs_roundDiv_sub_le (scale_snd_pos hden num (exponentFor num den))
    (scale num den (exponentFor num den)).1
  rw [scale_div] at hround
  calc |(rounded num den).toRat - num / den|
      = |((rounded num den).significand : ℚ) - num / den / 2 ^ exponentFor num den| *
          2 ^ exponentFor num den := by
        rw [toRat, ← abs_of_pos hpow, ← abs_mul, abs_of_pos hpow, sub_mul,
          div_mul_cancel₀ _ hpow.ne']
        rfl
    _ ≤ 1 / 2 * 2 ^ exponentFor num den := by
        gcongr
        exact hround
    _ = 2 ^ (exponentFor num den - 1) := by
        rw [zpow_sub_one₀ two_ne_zero]
        ring

/-- **Rounding is near.** -/
lemma near_rounded (hnum : 0 < num) (hden : 0 < den) : Near (rounded num den) (num / den) := by
  have hhalf := abs_rounded_sub_le hden num
  have hratio : (0 : ℚ) ≤ num / den := by positivity
  rcases (exponentFor_spec hnum hden).2 with hleast | hnormal
  · rw [hleast] at hhalf
    refine hhalf.trans (le_add_of_nonneg_left ?_)
    positivity
  · refine hhalf.trans (le_add_of_le_of_nonneg ?_ halfLeast_nonneg)
    rw [le_div_iff₀ (by positivity)]
    refine le_of_eq_of_le ?_ hnormal
    rw [← zpow_natCast, ← zpow_add₀ two_ne_zero]
    congr 1
    push_cast
    ring

/-- How a value compares to a power of two. -/
lemma toRat_lt_iff (x : Binary64) (k : Int) :
    (scale x.significand 1 (k - x.exponent)).1 < (scale x.significand 1 (k - x.exponent)).2 ↔
      x.toRat < 2 ^ k := by
  have hiff := scale_lt_iff Nat.one_pos x.significand (k - x.exponent) 0
  rw [pow_zero, mul_one, Nat.cast_one, div_one, Nat.cast_zero, zero_add,
    zpow_sub₀ two_ne_zero, lt_div_iff₀ (by positivity)] at hiff
  exact hiff

/-- A ratio is rounded unless that comes to 2 ^ 1024 or more. -/
lemma ofRatio?_eq (hnum : 0 < num) (den : Nat) :
    ofRatio? num den =
      if (rounded num den).toRat < 2 ^ (1024 : ℤ) then some (rounded num den) else none := by
  -- the exponent gets a name, so that it is not computed
  obtain ⟨e, he⟩ : ∃ e, exponentFor num den = e := ⟨_, rfl⟩
  obtain ⟨o, ho⟩ : ∃ o, ofRatio? num den = o := ⟨_, rfl⟩
  rw [ho]
  unfold ofRatio? at ho
  rw [if_neg hnum.ne', he] at ho
  extract_lets e' at ho
  split at ho
  rename_i n d hscale
  extract_lets m at ho
  split at ho
  rename_i n' d' hbound
  have hrounded : rounded num den = ⟨m, e'⟩ := by rw [rounded, he, hscale]
  have hiff := toRat_lt_iff ⟨m, e'⟩ 1024
  clear_value m e'
  rw [hbound] at hiff
  rw [hrounded, ← ho]
  exact if_congr hiff rfl rfl

/-- **A rounded ratio** is near the ratio, and its significand is at most 2 ^ 53. -/
theorem near_of_ofRatio? {x : Binary64} (hden : 0 < den) (h : ofRatio? num den = some x) :
    x.significand ≤ 2 ^ 53 ∧ Near x (num / den) := by
  rcases Nat.eq_zero_or_pos num with rfl | hnum
  · obtain rfl := Option.some.inj h
    refine ⟨Nat.zero_le _, ?_⟩
    rw [Near]
    simp only [toRat, Nat.cast_zero, zero_mul, zero_div, sub_zero, abs_zero, zero_add]
    exact halfLeast_nonneg
  · rw [ofRatio?_eq hnum] at h
    split_ifs at h
    obtain rfl := Option.some.inj h
    exact ⟨significand_rounded_le hnum hden, near_rounded hnum hden⟩

/-- **Only large ratios are too large for the format.** -/
theorem le_of_ofRatio?_eq_none (hden : 0 < den) (h : ofRatio? num den = none) :
    (2 : ℚ) ^ (1023 : ℤ) ≤ num / den := by
  rcases Nat.eq_zero_or_pos num with rfl | hnum
  · cases h
  · rw [ofRatio?_eq hnum] at h
    split_ifs at h with hlt
    have hnear := (abs_le.mp (near_rounded hnum hden)).2
    have hratio : (0 : ℚ) ≤ num / den := by positivity
    have hhalf := halfLeast_le
    have hdouble : (2 : ℚ) ^ (1024 : ℤ) = 2 * 2 ^ (1023 : ℤ) := by
      rw [← zpow_one_add₀ two_ne_zero]
      norm_num
    have htwo : (2 : ℚ) ^ (1 : ℤ) ≤ 2 ^ (1023 : ℤ) := zpow_le_zpow_right₀ one_le_two (by decide)
    rw [zpow_one] at htwo
    have hpart : (num / den : ℚ) / 2 ^ 53 ≤ num / den / 4 := by
      gcongr
      norm_num
    generalize (2 : ℚ) ^ (1024 : ℤ) = top at *
    generalize (2 : ℚ) ^ (1023 : ℤ) = half at *
    linarith

end Rounding

/-! ## Products -/

section Products

variable {x y p : Binary64} {q r : ℚ}

/-- The product of two values that are near `q` and `r`, where `r` has at most 60 bits. -/
lemma abs_toRat_mul_sub_le (hq : 0 ≤ q) (hr : 1 ≤ r) (hr' : r ≤ 2 ^ 60) (hx : Near x q)
    (hy : Near y r) : |x.toRat * y.toRat - q * r| ≤ q * r / 2 ^ 51 + 1 / 4 := by
  have hhalf := halfLeast_le
  have hhalf_nonneg := halfLeast_nonneg
  have hy_le : y.toRat ≤ 2 * r := by
    have := (abs_le.mp hy).2
    linarith
  have hq_le : q ≤ q * r := le_mul_of_one_le_right hq hr
  calc |x.toRat * y.toRat - q * r|
      = |(x.toRat - q) * y.toRat + q * (y.toRat - r)| := by ring_nf
    _ ≤ |(x.toRat - q) * y.toRat| + |q * (y.toRat - r)| := abs_add_le _ _
    _ = |x.toRat - q| * y.toRat + q * |y.toRat - r| := by
        rw [abs_mul, abs_mul, abs_of_nonneg y.toRat_nonneg, abs_of_nonneg hq]
    _ ≤ (q / 2 ^ 53 + halfLeast) * (2 * r) + q * (r / 2 ^ 53 + halfLeast) := by
        gcongr
        · exact y.toRat_nonneg
        · exact hx
        · exact hy
    _ = 3 * (q * r) / 2 ^ 53 + 2 * r * halfLeast + q * halfLeast := by ring
    _ ≤ 3 * (q * r) / 2 ^ 53 + 2 * 2 ^ 60 * (1 / 2 ^ 64) + q * r * (1 / 2 ^ 64) := by gcongr
    _ ≤ q * r / 2 ^ 51 + 1 / 4 := by linarith

/-- **A rounded product of rounded factors.** -/
theorem abs_toRat_sub_mul_le (hq : 0 ≤ q) (hr : 1 ≤ r) (hr' : r ≤ 2 ^ 60) (hx : Near x q)
    (hy : Near y r) (hp : Near p (x.toRat * y.toRat)) :
    |p.toRat - q * r| ≤ q * r / 2 ^ 50 + 1 / 2 := by
  have hhalf := halfLeast_le
  have hqr : 0 ≤ q * r := mul_nonneg hq (zero_le_one.trans hr)
  have hfactors := abs_toRat_mul_sub_le hq hr hr' hx hy
  have hproduct := (abs_le.mp hfactors).2
  have htriangle := abs_sub_le p.toRat (x.toRat * y.toRat) (q * r)
  rw [Near] at hp
  linarith

/-- The ratio of a product. -/
lemma ratio_mul_div (x y : Binary64) :
    ((x.ratio.1 * y.ratio.1 : ℕ) / (x.ratio.2 * y.ratio.2 : ℕ) : ℚ) = x.toRat * y.toRat := by
  rw [← ratio_div, ← ratio_div, Nat.cast_mul, Nat.cast_mul, mul_div_mul_comm]

/-- A rounded product is near the product. -/
lemma near_of_mul? (h : mul? x y = some p) :
    p.significand ≤ 2 ^ 53 ∧ Near p (x.toRat * y.toRat) := by
  rw [← ratio_mul_div]
  exact near_of_ofRatio? (Nat.mul_pos x.ratio_snd_pos y.ratio_snd_pos) h

/-- Only large products are too large for the format. -/
lemma le_of_mul?_eq_none (h : mul? x y = none) : (2 : ℚ) ^ (1023 : ℤ) ≤ x.toRat * y.toRat := by
  rw [← ratio_mul_div]
  exact le_of_ofRatio?_eq_none (Nat.mul_pos x.ratio_snd_pos y.ratio_snd_pos) h

end Products

end LintPool.Binary64
