import LintPool.Proofs.Rule.Agreement

/-!
# The constructs that rules find

A rule finds a construct by reading its pieces one behind the other. So the text in front of which
it was found starts with the construct, written out from these pieces, and the length that goes with
it is the length of that text.

## Main definitions

* `LintPool.Rule.Construct` : the texts of the constructs that a rule reports, and what it says of
  them.

## Main results

* `LintPool.Rule.Condition.exists_construct_of_find?`,
  `LintPool.Rule.Comparison.exists_construct_of_find?` : what is found is a construct.
* `LintPool.Rule.Construct.head_ne_space` : no construct starts with a space.
-/

namespace LintPool

/-! ## Pieces -/

namespace Source

variable {s text rest : Bytes}

/-- White space between the pieces of a construct; there may be none. -/
def IsGap (s : Bytes) : Prop := ∀ b ∈ s, isSpace b = true

/-- A text starts with the white space at its head. -/
lemma blanks_append (s : Bytes) : (blanks s).1 ++ (blanks s).2 = s :=
  List.takeWhile_append_dropWhile

/-- The white space at the head of a text is white space. -/
lemma isGap_blanks (s : Bytes) : IsGap (blanks s).1 := fun _ hb => List.mem_takeWhile_imp hb

/-- A byte is found at the head of a text. -/
lemma eq_append_of_byte? {c : Char} (h : byte? c s = some (text, rest)) :
    s = [byte c] ++ rest := by
  cases s with
  | nil => cases h
  | cons b s =>
    simp only [byte?] at h
    split at h
    · rename_i hb
      obtain ⟨-, rfl⟩ := Prod.mk.inj (Option.some.inj h)
      rw [hb]
      rfl
    · cases h

/-- A letter is found at the head of a text. -/
lemma eq_append_of_letter? {letter : UInt8} (h : letter? letter s = some (text, rest)) :
    s = text ++ rest := by
  cases s with
  | nil => cases h
  | cons b s =>
    simp only [letter?] at h
    split at h
    · obtain ⟨rfl, rfl⟩ := Prod.mk.inj (Option.some.inj h)
      rfl
    · split at h
      · cases s with
        | nil => cases h
        | cons c s =>
          simp only at h
          split at h
          · obtain ⟨rfl, rfl⟩ := Prod.mk.inj (Option.some.inj h)
            rfl
          · cases h
      · cases h

/-- A word is found at the head of a text. -/
lemma eq_append_of_word? {word : Bytes} (h : word? word s = some (text, rest)) :
    s = text ++ rest := by
  induction word generalizing s text rest with
  | nil =>
    obtain ⟨rfl, rfl⟩ := Prod.mk.inj (Option.some.inj h)
    rfl
  | cons letter word ih =>
    simp only [word?, Option.bind_eq_bind, Option.bind_eq_some_iff, Prod.exists] at h
    obtain ⟨first, s', hfirst, others, s'', hothers, htext⟩ := h
    obtain ⟨rfl, rfl⟩ := Prod.mk.inj (Option.some.inj htext)
    rw [eq_append_of_letter? hfirst, ih hothers, List.append_assoc]

/-- One of some words is found at the head of a text. -/
lemma eq_append_of_anyWord? {words : List String} (h : anyWord? words s = some (text, rest)) :
    s = text ++ rest := by
  obtain ⟨word, -, hfound⟩ := List.exists_of_findSome?_eq_some h
  exact eq_append_of_word? hfound

/-- A word without spaces is spelled without spaces. -/
lemma Spells.space_notMem {word : Bytes} (h : Spells word text) (hword : byte ' ' ∉ word) :
    byte ' ' ∉ text := by
  intro hmem
  have hlower : byte ' ' ∈ text.map Bytes.lowerByte :=
    List.mem_map.mpr ⟨byte ' ', hmem, by decide⟩
  rcases h.mem_lower hlower with hspace | hlong
  · exact hword hspace
  · exact absurd hlong (by decide)

/-- A word without spaces is spelled with something else at its head. -/
lemma Spells.head_ne_space {word : Bytes} (h : Spells word text)
    (hword : word ≠ [] ∧ byte ' ' ∉ word) : ∃ b, text.head? = some b ∧ b ≠ byte ' ' := by
  have hspace := h.space_notMem hword.2
  cases h with
  | nil => exact absurd rfl hword.1
  | letter => exact ⟨_, rfl, (List.ne_of_not_mem_cons hspace).symm⟩
  | long => exact ⟨0xC5, rfl, by decide⟩

end Source

open Source

namespace Rule

section Literals

variable {s text rest : Bytes}

/-- Digits are found at the head of a text. -/
lemma eq_append_of_digits? (h : digits? s = some (text, rest)) : s = text ++ rest := by
  simp only [digits?] at h
  split at h
  · obtain ⟨rfl, rfl⟩ := Prod.mk.inj (Option.some.inj h)
    exact List.takeWhile_append_dropWhile.symm
  · cases h

/-- A text starts with the fraction at its head. -/
lemma fraction_append (s : Bytes) : (fraction s).1 ++ (fraction s).2 = s := by
  simp only [fraction]
  split
  · rfl
  · rename_i point rest hpoint
    split
    · rfl
    · rename_i digits rest' hdigits
      rw [eq_append_of_byte? hpoint, eq_append_of_digits? hdigits, LiteralType.eq_of_byte? hpoint,
        List.append_assoc]

/-- A text starts with the sign at its head. -/
lemma sign_append (s : Bytes) :
    ((byte? '-' s).getD ([], s)).1 ++ ((byte? '-' s).getD ([], s)).2 = s := by
  cases h : byte? '-' s with
  | none => rfl
  | some found =>
    rw [Option.getD_some, LiteralType.eq_of_byte? h]
    exact (eq_append_of_byte? h).symm

/-- A number is found at the head of a text. -/
lemma eq_append_of_number? (h : number? s = some (text, rest)) : s = text ++ rest := by
  simp only [number?, Option.bind_eq_bind, Option.bind_eq_some_iff, Prod.exists] at h
  obtain ⟨digits, s', hdigits, htext⟩ := h
  obtain ⟨rfl, rfl⟩ := Prod.mk.inj (Option.some.inj htext)
  rw [List.append_assoc, fraction_append, List.append_assoc, ← eq_append_of_digits? hdigits,
    sign_append]

/-- A text in quotes is found at the head of a text. -/
lemma eq_append_of_string? {quote : Char} (h : string? quote s = some (text, rest)) :
    s = text ++ rest := by
  simp only [string?, Option.bind_eq_bind, Option.bind_eq_some_iff, Prod.exists] at h
  obtain ⟨opening, s', hopening, closing, s'', hclosing, htext⟩ := h
  obtain ⟨rfl, rfl⟩ := Prod.mk.inj (Option.some.inj htext)
  rw [LiteralType.eq_of_byte? hopening, LiteralType.eq_of_byte? hclosing, List.append_assoc,
    ← eq_append_of_byte? hclosing, List.append_assoc, List.takeWhile_append_dropWhile]
  exact eq_append_of_byte? hopening

/-- A literal is found at the head of a text. -/
lemma eq_append_of_literal? (h : literal? s = some (text, rest)) : s = text ++ rest := by
  simp only [literal?, Option.orElse_eq_orElse, Option.orElse_eq_or, Option.or_eq_some_iff] at h
  rcases h with hnumber | ⟨-, hsingle | ⟨-, hdouble | ⟨-, hword⟩⟩⟩
  · exact eq_append_of_number? hnumber
  · exact eq_append_of_string? hsingle
  · exact eq_append_of_string? hdouble
  · exact eq_append_of_anyWord? hword

/-- No literal starts with a space. -/
lemma LiteralType.Written.head_ne_space {type : LiteralType} (h : type.Written text) :
    ∃ b, text.head? = some b ∧ b ≠ byte ' ' := by
  have hwords : ∀ word ∈ ["true", "false", "null"], utf8 word ≠ [] ∧ byte ' ' ∉ utf8 word := by
    decide
  have hnumeric : ∀ sign whole rest : Bytes, IsSign sign → IsDigits whole →
      ∃ b, (sign ++ whole ++ rest).head? = some b ∧ b ≠ byte ' ' := by
    intro sign whole rest hsign hwhole
    have hne : sign ++ whole ≠ [] := by simp [hwhole.ne_nil]
    obtain ⟨b, others, heq⟩ := List.exists_cons_of_ne_nil hne
    have hb := (isNumeric_of_mem hsign hwhole (heq ▸ List.mem_cons_self)).1
    refine ⟨b, by rw [heq]; rfl, ?_⟩
    rintro rfl
    revert hb
    decide
  cases h with
  | bool hmem hspells =>
    exact hspells.head_ne_space (hwords _ (List.mem_append_left ["null"] hmem))
  | null hspells => exact hspells.head_ne_space (hwords _ (by simp))
  | string hquote =>
    refine ⟨_, rfl, ?_⟩
    rintro rfl
    rcases hquote with hquote | hquote
    · exact absurd hquote (by decide)
    · exact absurd hquote (by decide)
  | float hsign hwhole _ => exact hnumeric _ _ _ hsign hwhole
  | int hsign hwhole =>
    rw [← List.append_nil (_ ++ _)]
    exact hnumeric _ _ _ hsign hwhole

end Literals

/-! ## Constructs -/

/-- The constructs that a rule reports: the text of a construct, the part at its head that a finding
points at, and what is said of it. -/
inductive Construct : Rule → (text lead message : Bytes) → Prop
  | condition {c : Condition} {keyword value : String} {gap₁ gap₂ gap₃ message : Bytes} :
      c.Spelled keyword value → IsGap gap₁ → IsGap gap₂ → IsGap gap₃ →
      c.message? = some message →
      Construct .constantCondition
        (c.keyword ++ gap₁ ++ [byte '('] ++ gap₂ ++ c.value ++ gap₃ ++ [byte ')']) c.keyword message
  | comparison {c : Comparison} {left right : LiteralType} {gap₁ gap₂ message : Bytes} :
      left.Written c.left → right.Written c.right → IsGap gap₁ → IsGap gap₂ →
      c.message? = some message →
      Construct .strictComparison (c.left ++ gap₁ ++ c.operator ++ gap₂ ++ c.right) c.left message

section Found

variable {before : Option UInt8} {s message : Bytes} {length : Nat}

/-- **A condition is found in front of its text.** -/
theorem Condition.exists_construct_of_find? {c : Condition}
    (h : Condition.find? before s = some (c, length)) (hmessage : c.message? = some message) :
    ∃ text rest, s = text ++ rest ∧ text.length = length ∧
      Construct .constantCondition text c.keyword message := by
  obtain ⟨keyword, value, hspelled⟩ := Condition.exists_spelled_of_find? h
  simp only [Condition.find?] at h
  split at h
  · cases h
  · simp only [Option.bind_eq_bind, Option.bind_eq_some_iff, Prod.exists] at h
    obtain ⟨keyword, s₁, hkeyword, opening, s₂, hopening, value, s₃, hvalue, closing, s₄, hclosing,
      hc⟩ := h
    obtain ⟨rfl, rfl⟩ := Prod.mk.inj (Option.some.inj hc)
    refine ⟨_, s₄, ?_, ?_, .condition hspelled (isGap_blanks s₁) (isGap_blanks s₂)
      (isGap_blanks s₃) hmessage⟩
    · simp only [List.append_assoc]
      rw [← eq_append_of_byte? hclosing, blanks_append, ← eq_append_of_anyWord? hvalue,
        blanks_append, ← eq_append_of_byte? hopening, blanks_append]
      exact eq_append_of_anyWord? hkeyword
    · simp only [List.length_append, LiteralType.eq_of_byte? hopening,
        LiteralType.eq_of_byte? hclosing]

/-- An operator is found at the head of a text. -/
lemma Comparison.eq_append_of_operator? {c : Comparison} {rest : Bytes}
    (h : Comparison.operator? s = some (c.negated, rest)) : s = c.operator ++ rest := by
  simp only [Comparison.operator?, Option.orElse_eq_orElse, Option.orElse_eq_or,
    Option.or_eq_some_iff, Option.map_eq_some_iff, Prod.mk.injEq] at h
  rcases h with ⟨s', hdrop, hnegated, rfl⟩ | ⟨-, s', hdrop, hnegated, rfl⟩
  · rw [Bytes.eq_append_of_dropPrefix? hdrop, Comparison.operator, ← hnegated]
    rfl
  · rw [Bytes.eq_append_of_dropPrefix? hdrop, Comparison.operator, ← hnegated]
    rfl

/-- The length of an operator. -/
lemma Comparison.length_operator (c : Comparison) : c.operator.length = 3 := by
  cases h : c.negated with
  | true => rw [Comparison.operator, h]; rfl
  | false => rw [Comparison.operator, h]; rfl

/-- **A comparison is found in front of its text.** -/
theorem Comparison.exists_construct_of_find? {c : Comparison}
    (h : Comparison.find? before s = some (c, length)) (hmessage : c.message? = some message) :
    ∃ text rest, s = text ++ rest ∧ text.length = length ∧
      Construct .strictComparison text c.left message := by
  have hwritten := Comparison.exists_written_of_find? h
  obtain ⟨left, hleft_written⟩ := hwritten c.left (by simp)
  obtain ⟨right, hright_written⟩ := hwritten c.right (by simp)
  simp only [Comparison.find?] at h
  split at h
  · cases h
  · simp only [Option.bind_eq_bind, Option.bind_eq_some_iff, Prod.exists] at h
    obtain ⟨left, s₁, hleft, negated, s₂, hoperator, right, s₃, hright, hc⟩ := h
    obtain ⟨rfl, rfl⟩ := Prod.mk.inj (Option.some.inj hc)
    refine ⟨_, s₃, ?_, ?_, .comparison hleft_written hright_written (isGap_blanks s₁)
      (isGap_blanks s₂) hmessage⟩
    · simp only [List.append_assoc]
      rw [← eq_append_of_literal? hright, blanks_append,
        ← Comparison.eq_append_of_operator? (c := ⟨left, negated, right⟩) hoperator, blanks_append]
      exact eq_append_of_literal? hleft
    · simp only [List.length_append, Comparison.length_operator]

end Found

section Heads

variable {rule : Rule} {text lead message : Bytes}

/-- A construct starts with the part that a finding points at. -/
lemma Construct.exists_eq_append (h : Construct rule text lead message) :
    ∃ others, text = lead ++ others := by
  cases h with
  | condition =>
    simp only [List.append_assoc]
    exact ⟨_, rfl⟩
  | comparison =>
    simp only [List.append_assoc]
    exact ⟨_, rfl⟩

/-- **No construct starts with a space.** -/
theorem Construct.head_ne_space (h : Construct rule text lead message) :
    ∃ b, lead.head? = some b ∧ b ≠ byte ' ' := by
  cases h with
  | condition hspelled =>
    have hwords : ∀ word ∈ ["if", "elseif", "while"], utf8 word ≠ [] ∧ byte ' ' ∉ utf8 word := by
      decide
    exact hspelled.keyword_spells.head_ne_space (hwords _ hspelled.keyword_mem)
  | comparison hleft => exact hleft.head_ne_space

end Heads

end Rule

end LintPool
