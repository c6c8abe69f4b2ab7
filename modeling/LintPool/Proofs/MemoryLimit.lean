import LintPool.MemoryLimit
import LintPool.Proofs.Number.Decimal
import Mathlib

/-!
# Sound memory limits

A memory limit should be positive, or unlimited where the text says `-1`. Sizes are unsigned numbers
of 64 bits and limits are signed ones, so that a size of 2 ^ 63 or more wraps around to a negative
limit. The theorem tells these texts apart, by the number of bytes that is read and by the exact
value of the number and the unit that are written. Around 2 ^ 63 and 2 ^ 64 the exact value leaves
it open on which side its rounding ends up.

## Main definitions

* `LintPool.Size.Reads` : the number and the unit that a size is written with.
* `LintPool.Size.value` : their exact product.
* `LintPool.MemoryLimit.Sound` : the answer for a text is an error, or positive, or unlimited as the
  text says.

## Main results

* `LintPool.Size.parse_of_reads` : the number of bytes that is read is near the exact value.
* `LintPool.MemoryLimit.sound_iff_size_fits` : exactly the sizes of 2 ^ 63 or more wrap around.
-/

namespace LintPool

/-! ## Sizes -/

namespace Size

open Numeral (Decimal)

/-- A text is written with the number `digits / 10 ^ places` and the name of a unit of `unit`
bytes. -/
structure Reads (s : Bytes) (digits places unit : Nat) : Prop where
  number : Decimal.mantissa? ((s.take (numberLength s)).filter (· ≠ byte ',')) =
    some (digits, places, [])
  unit : units.lookup (LowerCase.lowerText (Blank.trim (s.drop (numberLength s)))) = some unit

/-- The exact number of bytes. -/
def value (digits places unit : Nat) : ℚ := digits / 10 ^ places * unit

section Product

variable {s : Bytes} {digits places unit n : Nat} {p : Binary64}

/-- The number of bytes as it is computed, with its fraction. -/
def product? (digits places unit : Nat) : Option Binary64 :=
  (Decimal.magnitude? { digits, places }).bind fun f =>
    (Binary64.ofNat? unit).bind (Binary64.mul? f)

/-- Units have at most 60 bits. -/
lemma Reads.unit_bounds (h : Reads s digits places unit) : 1 ≤ unit ∧ unit ≤ 2 ^ 60 := by
  have hall : ∀ u ∈ units, 1 ≤ u.2 ∧ u.2 ≤ 2 ^ 60 := by decide
  obtain ⟨before, after, heq, -⟩ := List.lookup_eq_some_iff.mp h.unit
  refine hall (LowerCase.lowerText (Blank.trim (s.drop (numberLength s))), unit) ?_
  rw [heq]
  exact List.mem_append_right _ List.mem_cons_self

/-- What is read from a text that is written well. -/
lemma Reads.parse_cases (h : Reads s digits places unit) :
    (∃ p, product? digits places unit = some p ∧ p.truncate < 2 ^ 64 ∧
      parse s = .ok p.truncate) ∨
    ((∃ e, parse s = .error e) ∧
      ∀ p, product? digits places unit = some p → 2 ^ 64 ≤ p.truncate) := by
  rw [parse, product?]
  simp only [h.number, h.unit]
  cases Decimal.magnitude? { digits, places } with
  | none => exact .inr ⟨⟨_, rfl⟩, nofun⟩
  | some f =>
    simp only [Option.bind_some]
    cases (Binary64.ofNat? unit).bind f.mul? with
    | none => exact .inr ⟨⟨_, rfl⟩, nofun⟩
    | some p =>
      by_cases hlarge : 2 ^ 64 ≤ p.truncate
      · refine .inr ⟨⟨.tooLarge s, if_pos hlarge⟩, ?_⟩
        intro p' hp'
        rwa [← Option.some.inj hp']
      · exact .inl ⟨p, rfl, Nat.lt_of_not_le hlarge, if_neg hlarge⟩

/-- Only texts that are written well are read. -/
lemma exists_reads (h : parse s = .ok n) : ∃ digits places unit, Reads s digits places unit := by
  unfold parse at h
  extract_lets length number name at h
  split at h
  · rename_i digits places hnumber
    split at h
    · cases h
    · split at h
      · cases h
      · rename_i unit hunit
        exact ⟨digits, places, unit, hnumber, hunit⟩
  · cases h

/-- The exact number of bytes is not negative. -/
lemma value_nonneg (digits places unit : Nat) : 0 ≤ value digits places unit := by
  rw [value]
  positivity

/-- The exact number of bytes from the magnitude of the number. -/
lemma value_eq (digits places unit : Nat) :
    value digits places unit = Decimal.value { digits, places } * unit := by
  rw [value, Decimal.value, zero_sub, zpow_neg, zpow_natCast, div_eq_mul_inv]

/-- **The product is near the exact number of bytes.** -/
lemma Reads.abs_product_sub_le (h : Reads s digits places unit)
    (hp : product? digits places unit = some p) :
    p.significand ≤ 2 ^ 53 ∧
      |p.toRat - value digits places unit| ≤ value digits places unit / 2 ^ 50 + 1 / 2 := by
  obtain ⟨f, hf, u, hu, hmul⟩ :
      ∃ f, Decimal.magnitude? { digits, places } = some f ∧
        ∃ u, Binary64.ofNat? unit = some u ∧ f.mul? u = some p := by
    simpa [product?, Option.bind_eq_some_iff] using hp
  obtain ⟨hpos, hle⟩ := h.unit_bounds
  obtain ⟨hsignificand, hnear⟩ := Binary64.near_of_mul? hmul
  have hunit := (Binary64.near_of_ofRatio? Nat.one_pos hu).2
  rw [Nat.cast_one, div_one] at hunit
  rw [value_eq]
  exact ⟨hsignificand, Binary64.abs_toRat_sub_mul_le (Decimal.value_nonneg _)
    (by exact_mod_cast hpos) (by exact_mod_cast hle) (Decimal.near_of_magnitude? hf) hunit hnear⟩

/-- Only a huge number of bytes has no product. -/
lemma Reads.le_value (h : Reads s digits places unit) (hp : product? digits places unit = none) :
    2 ^ 100 ≤ value digits places unit := by
  obtain ⟨hpos, hle⟩ := h.unit_bounds
  have hpos' : (1 : ℚ) ≤ unit := by exact_mod_cast hpos
  have hle' : (unit : ℚ) ≤ 2 ^ 60 := by exact_mod_cast hle
  have hnonneg := Decimal.value_nonneg { digits, places }
  have hpow : (2 : ℚ) ^ 102 ≤ 2 ^ (1023 : ℤ) := by
    rw [← zpow_natCast]
    exact zpow_le_zpow_right₀ one_le_two (by decide)
  rw [value_eq]
  cases hf : Decimal.magnitude? { digits, places } with
  | none =>
    have hlarge := Decimal.le_of_magnitude?_eq_none hf
    generalize (2 : ℚ) ^ (1023 : ℤ) = top at *
    nlinarith
  | some f =>
    cases hu : Binary64.ofNat? unit with
    | none =>
      have hlarge := Binary64.le_of_ofRatio?_eq_none Nat.one_pos hu
      rw [Nat.cast_one, div_one] at hlarge
      generalize (2 : ℚ) ^ (1023 : ℤ) = top at *
      linarith
    | some u =>
      have hmul : f.mul? u = none := by simpa [product?, hf, hu] using hp
      have hlarge := Binary64.le_of_mul?_eq_none hmul
      have hunit := (Binary64.near_of_ofRatio? Nat.one_pos hu).2
      rw [Nat.cast_one, div_one] at hunit
      have hnear := (abs_le.mp (Binary64.abs_toRat_mul_sub_le hnonneg hpos' hle'
        (Decimal.near_of_magnitude? hf) hunit)).2
      generalize (2 : ℚ) ^ (1023 : ℤ) = top at *
      linarith

/-- **The number of bytes that is read is near the exact one**, and only large sizes are refused. -/
theorem parse_of_reads (h : Reads s digits places unit) :
    (∃ n : ℕ, parse s = .ok n ∧ n < 2 ^ 64 ∧
      |(n : ℚ) - value digits places unit| ≤ value digits places unit / 2 ^ 50 + 3 / 2) ∨
    ((∃ e, parse s = .error e) ∧
      2 ^ 64 ≤ value digits places unit + value digits places unit / 2 ^ 50 + 1 / 2) := by
  have hvalue := value_nonneg digits places unit
  rcases h.parse_cases with ⟨p, hp, hlt, hparse⟩ | ⟨herror, hlarge⟩
  · refine .inl ⟨p.truncate, hparse, hlt, ?_⟩
    have hnear := (h.abs_product_sub_le hp).2
    have hfloor : |(p.truncate : ℚ) - p.toRat| ≤ 1 := by
      have hle := Nat.floor_le p.toRat_nonneg
      have hlt := Nat.lt_floor_add_one p.toRat
      rw [Binary64.truncate_eq_floor, abs_le]
      constructor <;> linarith
    have htriangle := abs_sub_le (p.truncate : ℚ) p.toRat (value digits places unit)
    linarith
  · refine .inr ⟨herror, ?_⟩
    cases hp : product? digits places unit with
    | none =>
      have := h.le_value hp
      linarith
    | some p =>
      have hnear := (abs_le.mp (h.abs_product_sub_le hp).2).2
      have hfloor : ((2 ^ 64 : ℕ) : ℚ) ≤ p.toRat := by
        rw [← Nat.le_floor_iff p.toRat_nonneg, ← Binary64.truncate_eq_floor]
        exact hlarge p hp
      push_cast at hfloor
      linarith

/-- What a size that is read comes from. -/
lemma exists_product (h : parse s = .ok n) :
    ∃ digits places unit p, Reads s digits places unit ∧ product? digits places unit = some p ∧
      p.truncate = n ∧ n < 2 ^ 64 := by
  obtain ⟨digits, places, unit, hreads⟩ := exists_reads h
  rcases hreads.parse_cases with ⟨p, hp, hlt, hparse⟩ | ⟨⟨e, herror⟩, -⟩
  · obtain rfl := Except.ok.inj (hparse.symm.trans h)
    exact ⟨digits, places, unit, p, hreads, hp, rfl, hlt⟩
  · cases herror.symm.trans h

/-- Sizes have at most 64 bits. -/
lemma lt_of_parse (h : parse s = .ok n) : n < 2 ^ 64 := by
  obtain ⟨-, -, -, -, -, -, -, hlt⟩ := exists_product h
  exact hlt

/-- **No size is the largest number of 64 bits**, as large products are even. -/
theorem parse_ne_max (s : Bytes) : parse s ≠ .ok (2 ^ 64 - 1) := by
  intro hmax
  obtain ⟨digits, places, unit, p, hreads, hp, htruncate, -⟩ := exists_product hmax
  have heven := Binary64.even_truncate (hreads.abs_product_sub_le hp).1
    (by rw [htruncate]; decide)
  rw [htruncate] at heven
  exact absurd heven (by decide)

end Product

end Size

/-! ## Limits -/

namespace MemoryLimit

/-- The answer for a text is sound: an error of the configuration, or no limit as the text says, or
a positive limit. -/
def Sound (s : Bytes) : Prop :=
  (∃ e, parse s = .error e ∧ utf8 "invalid configuration: " <+: e.message) ∨
    (parse s = .ok unlimited ∧ Blank.trim s = utf8 "-1") ∨
    ∃ limit, parse s = .ok limit ∧ 0 < limit

/-- Every error is one of the configuration. -/
lemma prefix_message (e : ParseError) : utf8 "invalid configuration: " <+: e.message := by
  cases e with
  | empty => decide
  | badSize text e =>
    rw [ParseError.message, List.append_assoc, List.append_assoc]
    exact List.IsPrefix.trans (by decide) (List.prefix_append _ _)
  | zero => decide

/-- The text `-1` is no size, and neither is no text. -/
lemma parse_expand_ne_ok {s : Bytes} (h : s = utf8 "-1" ∨ s = []) (n : Nat) :
    Size.parse (expand s) ≠ .ok n := by
  intro hok
  obtain ⟨digits, places, unit, hreads⟩ := Size.exists_reads hok
  -- however many bytes the number is said to have, there is none
  have hnone : ∀ k,
      Numeral.Decimal.mantissa? (((expand s).take k).filter (· ≠ byte ',')) = none := by
    intro k
    cases k with
    | zero => rfl
    | succ k => rcases h with rfl | rfl <;> rfl
  cases (hnone _).symm.trans hreads.number

/-- What a text is read as. -/
lemma parse_cases (s : Bytes) :
    (parse s = .ok unlimited ∧ Blank.trim s = utf8 "-1") ∨
    (∃ e, parse s = .error e ∧ ∀ n, Size.parse (expand (Blank.trim s)) = .ok n → n = 0) ∨
    ∃ n, parse s = .ok (Int64.ofNat n) ∧ 0 < n ∧
      Size.parse (expand (Blank.trim s)) = .ok n := by
  rw [parse]
  by_cases hunlimited : Blank.trim s = utf8 "-1"
  · exact .inl ⟨if_pos hunlimited, hunlimited⟩
  rw [if_neg hunlimited]
  by_cases hempty : Blank.trim s = []
  · refine .inr (.inl ⟨.empty, if_pos (List.isEmpty_iff.mpr hempty), fun n hn => ?_⟩)
    exact absurd hn (parse_expand_ne_ok (.inr hempty) n)
  rw [if_neg (mt List.isEmpty_iff.mp hempty)]
  dsimp only
  cases hsize : Size.parse (expand (Blank.trim s)) with
  | error e => exact .inr (.inl ⟨_, rfl, nofun⟩)
  | ok n =>
    rcases Nat.eq_zero_or_pos n with hzero | hpos
    · exact .inr (.inl ⟨.zero, if_pos hzero, fun m hm => Except.ok.inj hm ▸ hzero⟩)
    · exact .inr (.inr ⟨n, if_neg hpos.ne', hpos, rfl⟩)

section Words

variable {n : Nat}

/-- Sizes below 2 ^ 63 are positive limits. -/
lemma ofNat_pos (hpos : 0 < n) (hlt : n < 2 ^ 63) : 0 < Int64.ofNat n := by
  rw [Int64.lt_iff_toInt_lt, Int64.toInt_ofNat_of_lt hlt, Int64.toInt_zero]
  exact_mod_cast hpos

/-- Sizes from 2 ^ 63 on wrap around. -/
lemma toInt_ofNat_of_le (hle : 2 ^ 63 ≤ n) (hlt : n < 2 ^ 64) :
    (Int64.ofNat n).toInt = n - 2 ^ 64 := by
  have hmod : (n : ℤ) % (Int64.size : ℕ) = n :=
    Int.emod_eq_of_lt (Int.natCast_nonneg n) (by exact_mod_cast hlt)
  rw [Int64.toInt_ofNat', Int.bmod_def, hmod, if_neg]
  · rfl
  · norm_num
    omega

/-- The limit that is none is the largest number of 64 bits. -/
lemma eq_of_ofNat_eq_unlimited (hlt : n < 2 ^ 64) (h : Int64.ofNat n = unlimited) :
    n = 2 ^ 64 - 1 := by
  have hint : (Int64.ofNat n).toInt = -1 := congrArg Int64.toInt h
  by_cases hle : 2 ^ 63 ≤ n
  · rw [toInt_ofNat_of_le hle hlt] at hint
    omega
  · rw [Int64.toInt_ofNat_of_lt (by omega)] at hint
    omega

end Words

section Soundness

variable {s : Bytes} {n : Nat}

/-- **Only `-1` is unlimited.** -/
theorem parse_eq_unlimited_iff (s : Bytes) :
    parse s = .ok unlimited ↔ Blank.trim s = utf8 "-1" := by
  constructor
  · intro hparse
    rcases parse_cases s with ⟨-, htrim⟩ | ⟨e, herror, -⟩ | ⟨n, hok, -, hsize⟩
    · exact htrim
    · cases herror.symm.trans hparse
    · have hmax := eq_of_ofNat_eq_unlimited (Size.lt_of_parse hsize)
        (Except.ok.inj (hok.symm.trans hparse))
      exact absurd (hmax ▸ hsize) (Size.parse_ne_max _)
  · intro htrim
    rw [parse, htrim]
    rfl

/-- **Sizes of 2 ^ 63 or more become negative limits.** -/
theorem exists_negative_limit (hsize : Size.parse (expand (Blank.trim s)) = .ok n)
    (hle : 2 ^ 63 ≤ n) :
    ∃ limit, parse s = .ok limit ∧ limit.toInt = n - 2 ^ 64 ∧ limit < 0 := by
  have hlt := Size.lt_of_parse hsize
  have hint := toInt_ofNat_of_le hle hlt
  refine ⟨Int64.ofNat n, ?_, hint, ?_⟩
  · rcases parse_cases s with ⟨-, htrim⟩ | ⟨-, -, hzero⟩ | ⟨m, hok, -, hm⟩
    · exact absurd hsize (parse_expand_ne_ok (.inl htrim) n)
    · have := hzero n hsize
      omega
    · rw [hok, Except.ok.inj (hm.symm.trans hsize)]
  · rw [Int64.lt_iff_toInt_lt, hint, Int64.toInt_zero]
    omega

/-- **Exactly the texts whose size fits are sound.** -/
theorem sound_iff (s : Bytes) :
    Sound s ↔ ∀ n, Size.parse (expand (Blank.trim s)) = .ok n → n < 2 ^ 63 := by
  constructor
  · intro hsound n hsize
    by_contra hge
    obtain ⟨limit, hlimit, -, hnegative⟩ := exists_negative_limit hsize (Nat.le_of_not_lt hge)
    rcases hsound with ⟨e, herror, -⟩ | ⟨-, htrim⟩ | ⟨limit', hlimit', hpositive⟩
    · cases herror.symm.trans hlimit
    · exact parse_expand_ne_ok (.inl htrim) n hsize
    · rw [Except.ok.inj (hlimit'.symm.trans hlimit)] at hpositive
      exact absurd hpositive (Int64.lt_asymm hnegative)
  · intro hfits
    rcases parse_cases s with hunlimited | ⟨e, herror, -⟩ | ⟨n, hok, hpos, hsize⟩
    · exact .inr (.inl hunlimited)
    · exact .inl ⟨e, herror, prefix_message e⟩
    · exact .inr (.inr ⟨_, hok, ofNat_pos hpos (hfits n hsize)⟩)

/-- The exact value of a size decides, unless it is close to 2 ^ 63 or 2 ^ 64. -/
lemma sound_of_value {digits places unit : Nat}
    (hreads : Size.Reads (expand (Blank.trim s)) digits places unit)
    (hvalue : Size.value digits places unit ≤ 2 ^ 63 - 2 ^ 14 ∨
      2 ^ 64 + 2 ^ 15 ≤ Size.value digits places unit) : Sound s := by
  rw [sound_iff]
  intro n hsize
  rcases Size.parse_of_reads hreads with ⟨m, hm, hlt, hnear⟩ | ⟨⟨e, herror⟩, -⟩
  · obtain rfl := Except.ok.inj (hm.symm.trans hsize)
    obtain ⟨hlow, hhigh⟩ := abs_le.mp hnear
    have hlt' : (m : ℚ) < 2 ^ 64 := by exact_mod_cast hlt
    have hfits : (m : ℚ) < 2 ^ 63 := by rcases hvalue with hvalue | hvalue <;> linarith
    exact_mod_cast hfits
  · cases herror.symm.trans hsize

/-- The exact value of a size that wraps around. -/
lemma not_sound_of_value {digits places unit : Nat}
    (hreads : Size.Reads (expand (Blank.trim s)) digits places unit)
    (hlow : 2 ^ 63 + 2 ^ 14 ≤ Size.value digits places unit)
    (hhigh : Size.value digits places unit ≤ 2 ^ 64 - 2 ^ 15) : ¬ Sound s := by
  rw [sound_iff]
  intro hfits
  rcases Size.parse_of_reads hreads with ⟨n, hn, -, hnear⟩ | ⟨-, hlarge⟩
  · have hlt : (n : ℚ) < 2 ^ 63 := by exact_mod_cast hfits n hn
    have := (abs_le.mp hnear).1
    linarith
  · linarith

/-- **Memory limits are positive or unlimited, unless the size wraps around.** The answer for a text
is an error, or positive, or unlimited where the text is `-1`, exactly if the size that is read is
below 2 ^ 63. From there on the limit is negative, but never `-1`. In terms of what is written,
sizes below 2 ^ 63 and sizes of 2 ^ 64 or more are sound and those in between are not, where the
exact value is not so close to one of the two that it may be rounded across. -/
theorem sound_iff_size_fits (s : Bytes) :
    (Sound s ↔ ∀ n, Size.parse (expand (Blank.trim s)) = .ok n → n < 2 ^ 63) ∧
    (parse s = .ok unlimited ↔ Blank.trim s = utf8 "-1") ∧
    (∀ n, Size.parse (expand (Blank.trim s)) = .ok n → 2 ^ 63 ≤ n →
      ∃ limit, parse s = .ok limit ∧ limit.toInt = n - 2 ^ 64 ∧ limit < 0) ∧
    ∀ digits places unit, Size.Reads (expand (Blank.trim s)) digits places unit →
      (Size.value digits places unit ≤ 2 ^ 63 - 2 ^ 14 ∨
        2 ^ 64 + 2 ^ 15 ≤ Size.value digits places unit → Sound s) ∧
      (2 ^ 63 + 2 ^ 14 ≤ Size.value digits places unit ∧
        Size.value digits places unit ≤ 2 ^ 64 - 2 ^ 15 → ¬ Sound s) := by
  refine ⟨sound_iff s, parse_eq_unlimited_iff s, fun n hsize hle => exists_negative_limit hsize hle,
    fun digits places unit hreads => ⟨sound_of_value hreads, ?_⟩⟩
  rintro ⟨hlow, hhigh⟩
  exact not_sound_of_value hreads hlow hhigh

/-- Nine exbibytes are 2 ^ 63 + 2 ^ 60 bytes, and wrap around. -/
theorem not_sound_nineExbibytes :
    (∃ limit, parse (utf8 "9EiB") = .ok limit ∧ limit < 0) ∧ ¬ Sound (utf8 "9EiB") := by
  have htrim : expand (Blank.trim (utf8 "9EiB")) = utf8 "9EiB" := by cbv
  have hlength : Size.numberLength (utf8 "9EiB") = 1 := by
    have hscalars : Utf8.scalars (utf8 "9EiB") = ['9', 'E', 'i', 'B'] := by cbv
    rw [Size.numberLength, hscalars]
    simp [Size.isNumberChar, Digit.isDigit, Digit.runs]
  have hname : LowerCase.lowerText (Blank.trim ((utf8 "9EiB").drop 1)) = utf8 "eib" := by cbv
  have hreads : Size.Reads (expand (Blank.trim (utf8 "9EiB"))) 9 0 (2 ^ 60) := by
    rw [htrim]
    constructor
    · rw [hlength]
      decide
    · rw [hlength, hname]
      decide
  have hsound : ¬ Sound (utf8 "9EiB") :=
    not_sound_of_value hreads (by norm_num [Size.value]) (by norm_num [Size.value])
  refine ⟨?_, hsound⟩
  rw [sound_iff] at hsound
  push Not at hsound
  obtain ⟨n, hsize, hle⟩ := hsound
  obtain ⟨limit, hlimit, -, hnegative⟩ := exists_negative_limit hsize hle
  exact ⟨limit, hlimit, hnegative⟩

end Soundness

end MemoryLimit

end LintPool
