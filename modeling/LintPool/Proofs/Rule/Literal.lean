import LintPool.Proofs.Source.Scan
import LintPool.Rule.Comparison
import Mathlib.Data.List.TakeWhile

/-!
# The types of literals

A literal is found by one of several patterns, each of which belongs to a type, and no text is
written by the patterns of two types. The type is told from the spelling afterwards. It comes out as
the type of the pattern, except that a boolean that is spelled with a long s is taken for an
integer.

## Main definitions

* `LintPool.Rule.LiteralType.Written` : the texts that the patterns of a type stand for.

## Main results

* `LintPool.Rule.LiteralType.exists_written_of_literal?` : literals are found by the patterns.
* `LintPool.Rule.LiteralType.Written.ofText_eq_iff` : which literals get the type of their pattern.
* `LintPool.Rule.LiteralType.Written.unique` : the patterns of two types have no text in common.
-/

namespace LintPool.Rule

open Source

/-! ## Patterns -/

/-- Digits, at least one of them. -/
structure IsDigits (s : Bytes) : Prop where
  ne_nil : s ≠ []
  isDigit : ∀ b ∈ s, Bytes.isDigit b = true

/-- A minus sign or nothing. -/
def IsSign (s : Bytes) : Prop := s = [] ∨ s = [byte '-']

/-- A quote of either kind. -/
def IsQuote (b : UInt8) : Prop := b = byte '\'' ∨ b = byte '"'

namespace LiteralType

/-- The texts that the patterns of a type stand for. -/
inductive Written : LiteralType → Bytes → Prop
  | bool {word : String} {text : Bytes} : word ∈ ["true", "false"] → Spells (utf8 word) text →
      Written .bool text
  | null {text : Bytes} : Spells (utf8 "null") text → Written .null text
  | string {quote : UInt8} {body : Bytes} : IsQuote quote →
      (∀ b ∈ body, b ≠ quote ∧ b ≠ byte '\n') → Written .string (quote :: body ++ [quote])
  | float {sign whole fraction : Bytes} : IsSign sign → IsDigits whole → IsDigits fraction →
      Written .float (sign ++ whole ++ byte '.' :: fraction)
  | int {sign whole : Bytes} : IsSign sign → IsDigits whole → Written .int (sign ++ whole)

section Found

variable {s text rest : Bytes}

/-- A given byte is found as it is. -/
lemma eq_of_byte? {c : Char} (h : byte? c s = some (text, rest)) : text = [byte c] := by
  cases s with
  | nil => cases h
  | cons b s =>
    simp only [byte?] at h
    split at h
    · rename_i hb
      obtain ⟨rfl, -⟩ := Prod.mk.inj (Option.some.inj h)
      rw [hb]
    · cases h

/-- What is found as digits. -/
lemma isDigits_of_digits? (h : digits? s = some (text, rest)) : IsDigits text := by
  simp only [digits?] at h
  split at h
  · rename_i hhead
    obtain ⟨rfl, -⟩ := Prod.mk.inj (Option.some.inj h)
    constructor
    · cases s with
      | nil => cases hhead
      | cons b s =>
        have hb : Bytes.isDigit b = true := hhead
        simp [hb]
    · intro b hb
      exact List.mem_takeWhile_imp hb
  · cases h

/-- What is found as a fraction: a point and digits, or nothing. -/
lemma fraction_cases (s : Bytes) :
    (fraction s).1 = [] ∨ ∃ digits, IsDigits digits ∧ (fraction s).1 = byte '.' :: digits := by
  simp only [fraction]
  split
  · exact .inl rfl
  · rename_i point rest hpoint
    split
    · exact .inl rfl
    · rename_i digits rest' hdigits
      right
      exact ⟨digits, isDigits_of_digits? hdigits, by rw [eq_of_byte? hpoint]; rfl⟩

/-- What is found as a sign. -/
lemma isSign_byte? (s : Bytes) : IsSign ((byte? '-' s).getD ([], s)).1 := by
  cases h : byte? '-' s with
  | none => exact .inl rfl
  | some found => exact .inr (eq_of_byte? h)

/-- What is found as a number. -/
lemma written_of_number? (h : number? s = some (text, rest)) :
    Written .int text ∨ Written .float text := by
  simp only [number?, Option.bind_eq_bind, Option.bind_eq_some_iff, Prod.exists] at h
  obtain ⟨digits, s', hdigits, htext⟩ := h
  obtain ⟨rfl, -⟩ := Prod.mk.inj (Option.some.inj htext)
  have hsign := isSign_byte? s
  have hwhole := isDigits_of_digits? hdigits
  rcases fraction_cases s' with hfraction | ⟨fraction, hfraction, heq⟩
  · left
    rw [hfraction, List.append_nil]
    exact .int hsign hwhole
  · right
    rw [heq]
    exact .float hsign hwhole hfraction

/-- What is found in quotes. -/
lemma written_of_string? {quote : Char} (hquote : IsQuote (byte quote))
    (h : string? quote s = some (text, rest)) : Written .string text := by
  simp only [string?, Option.bind_eq_bind, Option.bind_eq_some_iff, Prod.exists] at h
  obtain ⟨opening, s', hopening, closing, s'', hclosing, htext⟩ := h
  obtain ⟨rfl, -⟩ := Prod.mk.inj (Option.some.inj htext)
  rw [eq_of_byte? hopening, eq_of_byte? hclosing]
  refine .string hquote ?_
  intro b hb
  simpa using List.mem_takeWhile_imp hb

/-- **Literals are found by the patterns.** -/
theorem exists_written_of_literal? (h : literal? s = some (text, rest)) :
    ∃ type, Written type text := by
  simp only [literal?, Option.orElse_eq_orElse, Option.orElse_eq_or, Option.or_eq_some_iff] at h
  rcases h with hnumber | ⟨-, hsingle | ⟨-, hdouble | ⟨-, hword⟩⟩⟩
  · rcases written_of_number? hnumber with hint | hfloat
    · exact ⟨_, hint⟩
    · exact ⟨_, hfloat⟩
  · exact ⟨_, written_of_string? (.inl rfl) hsingle⟩
  · exact ⟨_, written_of_string? (.inr rfl) hdouble⟩
  · obtain ⟨word, hmem, hspells⟩ := exists_spells_of_anyWord? hword
    simp only [List.mem_cons, List.not_mem_nil, or_false] at hmem
    rcases hmem with rfl | rfl | rfl
    · exact ⟨_, .bool (by simp) hspells⟩
    · exact ⟨_, .bool (by simp) hspells⟩
    · exact ⟨_, .null hspells⟩

end Found

/-! ## Types -/

/-- The bytes of numbers: digits, the minus sign and the point. -/
def IsNumeric (b : UInt8) : Prop := byte '-' ≤ b ∧ b ≤ byte '9'

instance (b : UInt8) : Decidable (IsNumeric b) :=
  inferInstanceAs (Decidable (byte '-' ≤ b ∧ b ≤ byte '9'))

section Types

variable {type other : LiteralType} {text : Bytes} {b : UInt8}

/-- A digit is a byte of numbers, and no point. -/
lemma isNumeric_of_isDigit (h : Bytes.isDigit b = true) : IsNumeric b ∧ b ≠ byte '.' := by
  simp only [Bytes.isDigit, Bool.and_eq_true, decide_eq_true_eq] at h
  have hminus : byte '-' ≤ byte '0' := by decide
  have hpoint : ¬ byte '0' ≤ byte '.' := by decide
  refine ⟨⟨UInt8.le_trans hminus h.1, h.2⟩, ?_⟩
  rintro rfl
  exact hpoint h.1

/-- A quote is no byte of numbers. -/
lemma not_isNumeric_of_isQuote (h : IsQuote b) : ¬ IsNumeric b := by
  rcases h with rfl | rfl
  · decide
  · decide

/-- A text of bytes of numbers is its own lower case. -/
lemma lower_of_isNumeric (h : ∀ b ∈ text, IsNumeric b) : text.map Bytes.lowerByte = text := by
  refine (List.map_congr_left ?_).trans (List.map_id text)
  intro b hb
  have hupper : ¬ byte 'A' ≤ byte '9' := by decide
  have hb : ¬ (byte 'A' ≤ b ∧ b ≤ byte 'Z') := fun hle => hupper (UInt8.le_trans hle.1 (h b hb).2)
  rw [Bytes.lowerByte, if_neg hb]
  rfl

/-- The words of literals have no byte of a long s. -/
lemma notMem_word {word : String} (h : word ∈ ["true", "false", "null"]) : 0xC5 ∉ utf8 word := by
  have hwords : ∀ word ∈ ["true", "false", "null"], 0xC5 ∉ utf8 word := by decide
  exact hwords word h

/-- The type of a text that is no word and has no quotes. -/
lemma ofText_of_not_word
    (hword : ∀ word ∈ ["true", "false", "null"], text.map Bytes.lowerByte ≠ utf8 word)
    (hquote : ∀ quote, IsQuote quote → quote ∉ text.map Bytes.lowerByte) :
    ofText text = if byte '.' ∈ text.map Bytes.lowerByte then .float else .int := by
  have hhead : ∀ quote, IsQuote quote → (text.map Bytes.lowerByte).head? ≠ some quote := by
    intro quote hmem hhead
    exact hquote quote hmem (List.mem_of_mem_head? hhead)
  simp only [List.mem_cons, List.not_mem_nil, or_false, forall_eq_or_imp, forall_eq] at hword
  obtain ⟨htrue, hfalse, hnull⟩ := hword
  rw [ofText, if_neg (not_or.mpr ⟨htrue, hfalse⟩), if_neg hnull,
    if_neg (not_or.mpr ⟨hhead _ (.inl rfl), hhead _ (.inr rfl)⟩)]
  simp

/-- The type of a text of bytes of numbers. -/
lemma ofText_of_isNumeric (h : ∀ b ∈ text, IsNumeric b) :
    ofText text = if byte '.' ∈ text then .float else .int := by
  have hlower := lower_of_isNumeric h
  have hwords : ∀ word ∈ ["true", "false", "null"],
      (utf8 word).all (fun b => decide (IsNumeric b)) = false := by decide
  rw [ofText_of_not_word, hlower]
  · intro word hword heq
    rw [hlower] at heq
    have hall : (utf8 word).all (fun b => decide (IsNumeric b)) = true := by
      simpa [heq] using h
    rw [hwords word hword] at hall
    cases hall
  · intro quote hquote hmem
    rw [hlower] at hmem
    exact not_isNumeric_of_isQuote hquote (h quote hmem)

/-- A sign and digits are bytes of numbers, and no points. -/
lemma isNumeric_of_mem {sign whole : Bytes} (hsign : IsSign sign) (hwhole : IsDigits whole)
    (hb : b ∈ sign ++ whole) : IsNumeric b ∧ b ≠ byte '.' := by
  have hminus : IsNumeric (byte '-') ∧ byte '-' ≠ byte '.' := by decide
  rcases List.mem_append.mp hb with hb | hb
  · rcases hsign with rfl | rfl
    · cases hb
    · rw [List.mem_singleton.mp hb]
      exact hminus
  · exact isNumeric_of_isDigit (hwhole.isDigit b hb)

/-- A word in lower case has its own type. -/
lemma ofText_of_bool {word : String} (hword : word ∈ ["true", "false"])
    (h : text.map Bytes.lowerByte = utf8 word) : ofText text = .bool := by
  simp only [List.mem_cons, List.not_mem_nil, or_false] at hword
  rcases hword with rfl | rfl
  · rw [ofText, if_pos (.inl h)]
  · rw [ofText, if_pos (.inr h)]

/-- A text in quotes is a string. -/
lemma ofText_of_quote {quote : UInt8} (hquote : IsQuote quote) (rest : Bytes) :
    ofText (quote :: rest) = .string := by
  have hhead : ((quote :: rest).map Bytes.lowerByte).head? = some quote := by
    rcases hquote with rfl | rfl
    · rfl
    · rfl
  have hwords : ∀ word ∈ ["true", "false", "null"], (utf8 word).head? ≠ some quote := by
    rcases hquote with rfl | rfl
    · decide
    · decide
  have hne : ∀ word ∈ ["true", "false", "null"],
      (quote :: rest).map Bytes.lowerByte ≠ utf8 word := by
    intro word hword heq
    rw [heq] at hhead
    exact hwords word hword hhead
  rw [ofText, if_neg (not_or.mpr ⟨hne _ (by simp), hne _ (by simp)⟩), if_neg (hne _ (by simp)),
    if_pos]
  rw [hhead]
  exact hquote.imp (congrArg some) (congrArg some)

/-- **A boolean that is spelled with a long s is taken for an integer**: in lower case it is none of
the words, and it has neither quotes nor a point. -/
theorem Written.ofText_of_hasLongS (h : Written .bool text) (hlong : HasLongS text) :
    ofText text = .int := by
  cases h with
  | @bool word _ hword hspells =>
    have hothers : ∀ word ∈ ["true", "false"],
        ¬ (byte '\'' ∈ utf8 word ∨ byte '\'' ∈ longS) ∧
        ¬ (byte '"' ∈ utf8 word ∨ byte '"' ∈ longS) ∧
        ¬ (byte '.' ∈ utf8 word ∨ byte '.' ∈ longS) := by decide
    obtain ⟨hsingle, hdouble, hpoint⟩ := hothers word hword
    rw [ofText_of_not_word, if_neg]
    · intro hmem
      exact hpoint (hspells.mem_lower hmem)
    · intro word hword heq
      apply notMem_word hword
      rw [← heq]
      exact mem_lower_of_hasLongS hlong
    · intro quote hquote hmem
      rcases hquote with rfl | rfl
      · exact hsingle (hspells.mem_lower hmem)
      · exact hdouble (hspells.mem_lower hmem)

/-- Every other literal gets the type of its pattern. -/
lemma Written.ofText_eq (h : Written type text) (hlong : ¬ (type = .bool ∧ HasLongS text)) :
    ofText text = type := by
  cases h with
  | bool hword hspells =>
    have hascii := notMem_word (List.mem_append_left ["null"] hword)
    have hlower := (hspells.lower_eq_iff hascii).mpr fun hmore => hlong ⟨rfl, hmore⟩
    exact ofText_of_bool hword hlower
  | null hspells =>
    have hascii : 0xC5 ∉ utf8 "null" := notMem_word (by simp)
    have hnone := hspells.not_hasLongS (by decide) hascii
    have hlower := (hspells.lower_eq_iff hascii).mpr hnone
    rw [ofText, hlower]
    decide
  | string hquote _ => exact ofText_of_quote hquote _
  | @float sign whole fraction hsign hwhole hfraction =>
    have hnumeric : ∀ b ∈ sign ++ whole ++ byte '.' :: fraction, IsNumeric b := by
      intro b hb
      rcases List.mem_append.mp hb with hb | hb
      · exact (isNumeric_of_mem hsign hwhole hb).1
      · rcases List.mem_cons.mp hb with rfl | hb
        · decide
        · exact (isNumeric_of_isDigit (hfraction.isDigit b hb)).1
    rw [ofText_of_isNumeric hnumeric, if_pos (by simp)]
  | int hsign hwhole =>
    rw [ofText_of_isNumeric fun b hb => (isNumeric_of_mem hsign hwhole hb).1, if_neg]
    intro hpoint
    exact (isNumeric_of_mem hsign hwhole hpoint).2 rfl

/-- **Which literals get the type of their pattern**: all but the booleans that are spelled with a
long s. -/
theorem Written.ofText_eq_iff (h : Written type text) :
    ofText text = type ↔ ¬ (type = .bool ∧ HasLongS text) := by
  constructor
  · rintro heq ⟨rfl, hlong⟩
    rw [h.ofText_of_hasLongS hlong] at heq
    cases heq
  · exact h.ofText_eq

/-- There is no long s in an integer. -/
lemma Written.not_hasLongS (h : Written .int text) : ¬ HasLongS text := by
  intro hlong
  cases h with
  | int hsign hwhole =>
    have hmem : (0xC5 : UInt8) ∈ _ := hlong.subset List.mem_cons_self
    have hnumeric := (isNumeric_of_mem hsign hwhole hmem).1
    revert hnumeric
    decide

/-- A boolean that is spelled with a long s is written by no other pattern. -/
lemma Written.eq_bool (h : Written .bool text) (hlong : HasLongS text)
    (hother : Written other text) : other = .bool := by
  by_contra hne
  have hint : other = .int := by
    rw [← hother.ofText_eq fun hbool => hne hbool.1]
    exact h.ofText_of_hasLongS hlong
  rw [hint] at hother
  exact hother.not_hasLongS hlong

/-- **The patterns of two types have no text in common.**

**Proof sketch.** The type that a text gets is that of every pattern it is written by, unless that
is a boolean with a long s; and then an integer with a long s would be needed. -/
theorem Written.unique (h : Written type text) (hother : Written other text) : other = type := by
  by_cases htype : type = .bool ∧ HasLongS text
  · obtain ⟨rfl, hlong⟩ := htype
    exact h.eq_bool hlong hother
  · by_cases hbool : other = .bool ∧ HasLongS text
    · obtain ⟨rfl, hlong⟩ := hbool
      exact (hother.eq_bool hlong h).symm
    · rw [← hother.ofText_eq hbool, h.ofText_eq htype]

end Types

end LiteralType

end LintPool.Rule
