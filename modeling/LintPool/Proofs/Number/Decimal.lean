import LintPool.Number.Numeral
import LintPool.Proofs.Number.Binary64
import Mathlib

/-!
# Rounding decimal fractions

The magnitude of a decimal fraction is the binary64 value near its exact value. Far outside of the
range of the format nothing is computed: there the number of binary digits of the coefficient tells
enough about its number of decimal digits.

## Main definitions

* `LintPool.Numeral.Decimal.value` : the exact magnitude.

## Main results

* `LintPool.Numeral.Decimal.near_of_magnitude?` : the magnitude is near the exact one.
* `LintPool.Numeral.Decimal.le_of_magnitude?_eq_none` : only large magnitudes are too large for the
  format.
-/

namespace LintPool.Numeral.Decimal

open Binary64 (Near halfLeast)

/-- The exact magnitude. -/
def value (d : Decimal) : ℚ := d.digits * (10 : ℚ) ^ (d.exponent - d.places)

/-- A magnitude is not negative. -/
lemma value_nonneg (d : Decimal) : 0 ≤ d.value := by
  rw [value]
  positivity

/-! ## Decimal and binary digits -/

/-- Three binary digits are less than one decimal digit. -/
lemma two_zpow_le_ten_zpow {k : ℤ} (hk : 0 ≤ k) : (2 : ℚ) ^ (3 * k) ≤ 10 ^ k := by
  lift k to ℕ using hk
  rw [zpow_mul, zpow_natCast, zpow_natCast]
  gcongr
  norm_num

/-- Four binary digits are more than one decimal digit. -/
lemma ten_zpow_le_two_zpow {k : ℤ} (hk : 0 ≤ k) : (10 : ℚ) ^ k ≤ 2 ^ (4 * k) := by
  lift k to ℕ using hk
  rw [zpow_mul, zpow_natCast, zpow_natCast]
  gcongr
  norm_num

variable {d : Decimal} {x : Binary64}

/-- A number with `n` binary digits has at most `n / 3 + 1` decimal digits. -/
lemma value_le_ten_zpow (d : Decimal) :
    d.value ≤ 10 ^ ((d.digits.log2 : ℤ) / 3 + 1 + (d.exponent - d.places)) := by
  have hdigits : (d.digits : ℚ) ≤ 10 ^ ((d.digits.log2 : ℤ) / 3 + 1) := by
    calc (d.digits : ℚ)
        ≤ 2 ^ ((d.digits.log2 : ℤ) + 1) := by exact_mod_cast (Nat.lt_log2_self).le
      _ ≤ 2 ^ (3 * ((d.digits.log2 : ℤ) / 3 + 1)) := zpow_le_zpow_right₀ one_le_two (by omega)
      _ ≤ 10 ^ ((d.digits.log2 : ℤ) / 3 + 1) := two_zpow_le_ten_zpow (by omega)
  rw [value, zpow_add₀ (by norm_num)]
  gcongr

/-- A number with `n` binary digits is at least `10 ^ (n / 4)`. -/
lemma ten_zpow_le_value (hdigits : d.digits ≠ 0) :
    10 ^ ((d.digits.log2 : ℤ) / 4 + (d.exponent - d.places)) ≤ d.value := by
  have hpow : (10 : ℚ) ^ ((d.digits.log2 : ℤ) / 4) ≤ d.digits := by
    calc (10 : ℚ) ^ ((d.digits.log2 : ℤ) / 4)
        ≤ 2 ^ (4 * ((d.digits.log2 : ℤ) / 4)) := ten_zpow_le_two_zpow (by omega)
      _ ≤ 2 ^ (d.digits.log2 : ℤ) := zpow_le_zpow_right₀ one_le_two (by omega)
      _ ≤ d.digits := by exact_mod_cast Nat.log2_self_le hdigits
  rw [value, zpow_add₀ (by norm_num)]
  gcongr

/-! ## Rounding -/

/-- What the magnitude is, by the size of the exact one. -/
lemma magnitude?_cases (d : Decimal) :
    (d.magnitude? = some ⟨0, 0⟩ ∧ d.value ≤ halfLeast) ∨
      (d.magnitude? = none ∧ (2 : ℚ) ^ (1023 : ℤ) ≤ d.value) ∨
      ∃ num den : ℕ, 0 < den ∧ d.magnitude? = Binary64.ofRatio? num den ∧ d.value = num / den := by
  have hhigh := d.value_le_ten_zpow
  have hlow := ten_zpow_le_value (d := d)
  have hvalue : d.value = d.digits * (10 : ℚ) ^ (d.exponent - d.places) := rfl
  obtain ⟨o, ho⟩ : ∃ o, d.magnitude? = o := ⟨_, rfl⟩
  rw [ho]
  unfold magnitude? at ho
  extract_lets e top at ho
  change _ ≤ (10 : ℚ) ^ top at hhigh
  split_ifs at ho with hsmall hlarge
  · refine .inl ⟨ho.symm, ?_⟩
    rcases hsmall with hzero | htop
    · rw [hvalue, hzero, Nat.cast_zero, zero_mul]
      exact Binary64.halfLeast_nonneg
    · calc d.value ≤ 10 ^ top := hhigh
        _ ≤ 10 ^ (-400 : ℤ) := zpow_le_zpow_right₀ (by norm_num) htop.le
        _ ≤ 2 ^ (-(3 * 400) : ℤ) := by
            rw [zpow_neg, zpow_neg]
            exact inv_anti₀ (by positivity) (two_zpow_le_ten_zpow (by decide))
        _ ≤ halfLeast := zpow_le_zpow_right₀ one_le_two (by decide)
  · refine .inr (.inl ⟨ho.symm, ?_⟩)
    calc (2 : ℚ) ^ (1023 : ℤ) ≤ 2 ^ (3 * 400 : ℤ) := zpow_le_zpow_right₀ one_le_two (by decide)
      _ ≤ 10 ^ (400 : ℤ) := two_zpow_le_ten_zpow (by decide)
      _ ≤ 10 ^ ((d.digits.log2 : ℤ) / 4 + e) := zpow_le_zpow_right₀ (by norm_num) hlarge.le
      _ ≤ d.value := hlow fun hzero => hsmall (.inl hzero)
  · refine .inr (.inr ?_)
    change _ = _ * (10 : ℚ) ^ e at hvalue
    clear_value e
    rw [← ho, hvalue]
    cases e with
    | ofNat k =>
      exact ⟨d.digits * 10 ^ k, 1, Nat.one_pos, rfl, by simp⟩
    | negSucc k =>
      exact ⟨d.digits, 10 ^ (k + 1), by positivity, rfl,
        by simp [zpow_negSucc, div_eq_mul_inv]⟩

/-- **The magnitude is near the exact one.** -/
theorem near_of_magnitude? (h : d.magnitude? = some x) : Near x d.value := by
  rcases d.magnitude?_cases with ⟨hsome, hvalue⟩ | ⟨hnone, -⟩ | ⟨num, den, hden, heq, hvalue⟩
  · obtain rfl := Option.some.inj (hsome.symm.trans h)
    have := d.value_nonneg
    rw [Near, Binary64.toRat, Nat.cast_zero, zero_mul, zero_sub, abs_neg, abs_of_nonneg this]
    exact hvalue.trans (le_add_of_nonneg_left (by positivity))
  · cases hnone.symm.trans h
  · rw [hvalue]
    exact (Binary64.near_of_ofRatio? hden (heq.symm.trans h)).2

/-- **Only large magnitudes are too large for the format.** -/
theorem le_of_magnitude?_eq_none (h : d.magnitude? = none) : (2 : ℚ) ^ (1023 : ℤ) ≤ d.value := by
  rcases d.magnitude?_cases with ⟨hsome, -⟩ | ⟨-, hvalue⟩ | ⟨num, den, hden, heq, hvalue⟩
  · cases hsome.symm.trans h
  · exact hvalue
  · rw [hvalue]
    exact Binary64.le_of_ofRatio?_eq_none hden (heq.symm.trans h)

end LintPool.Numeral.Decimal
