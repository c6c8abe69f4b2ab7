import LintPool.Proofs.Rule.Literal
import LintPool.Rule.Catalog

/-!
# What rules say about what they find

A rule finds a construct in one way and says what it found in another: words are found in any of
their spellings, and told apart in lower case. The two agree on every spelling but those with a long
s, which lower case keeps.

## Main definitions

* `LintPool.Rule.Condition.labels` : the reports of conditions.

## Main results

* `LintPool.Rule.Condition.exists_label_iff` : which conditions are reported by their name.
* `LintPool.Rule.classification_agrees_iff` : what a rule says agrees with what it found, unless
  there is a long s.
-/

namespace LintPool.Rule

open Source

/-! ## Conditions -/

namespace Condition

/-- The report of a keyword with a value as its condition. -/
structure Label where
  keyword : String
  value : String
  message : Bytes

/-- The reports of conditions. There is none of the endless loop. -/
def labels : List Label :=
  [⟨"if", "true", utf8 "If condition is always true."⟩,
    ⟨"if", "false", utf8 "If condition is always false."⟩,
    ⟨"elseif", "true", utf8 "Elseif condition is always true."⟩,
    ⟨"elseif", "false", utf8 "Elseif condition is always false."⟩,
    ⟨"while", "false", utf8 "While loop condition is always false."⟩]

/-- A condition in one of the spellings of a keyword and a value. -/
structure Spelled (c : Condition) (keyword value : String) : Prop where
  keyword_mem : keyword ∈ ["if", "elseif", "while"]
  value_mem : value ∈ ["true", "false"]
  keyword_spells : Spells (utf8 keyword) c.keyword
  value_spells : Spells (utf8 value) c.value

/-- There is a long s in the spelling of a condition. -/
def SpelledLong (c : Condition) : Prop := HasLongS c.keyword ∨ HasLongS c.value

variable {c : Condition} {message : Bytes}

/-- Conditions are found in the spellings of their keywords and values. -/
lemma exists_spelled_of_find? {before : Option UInt8} {s : Bytes} {length : Nat}
    (h : find? before s = some (c, length)) : ∃ keyword value, Spelled c keyword value := by
  simp only [find?] at h
  split at h
  · cases h
  · simp only [Option.bind_eq_bind, Option.bind_eq_some_iff, Prod.exists] at h
    obtain ⟨keyword, s₁, hkeyword, opening, s₂, -, value, s₃, hvalue, closing, s₄, -, hc⟩ := h
    obtain ⟨rfl, -⟩ := Prod.mk.inj (Option.some.inj hc)
    obtain ⟨keyword', hkeyword_mem, hkeyword_spells⟩ := exists_spells_of_anyWord? hkeyword
    obtain ⟨value', hvalue_mem, hvalue_spells⟩ := exists_spells_of_anyWord? hvalue
    exact ⟨keyword', value', hkeyword_mem, hvalue_mem, hkeyword_spells, hvalue_spells⟩

/-- Keywords have no byte of a long s. -/
lemma notMem_keyword {word : String} (h : word ∈ ["if", "elseif", "while"]) : 0xC5 ∉ utf8 word := by
  have hwords : ∀ word ∈ ["if", "elseif", "while"], 0xC5 ∉ utf8 word := by decide
  exact hwords word h

/-- The report of a condition that lower case gives the keyword and the value back of. -/
lemma message?_eq_label {keyword value : String} (hkeyword : keyword ∈ ["if", "elseif", "while"])
    (hvalue : value ∈ ["true", "false"]) (hlower : lower c.keyword = utf8 keyword)
    (hlower' : lower c.value = utf8 value) :
    message? c =
      (labels.find? fun l => l.keyword == keyword && l.value == value).map (·.message) := by
  have hstays : ∀ word ∈ ["if", "elseif", "while"] ++ ["true", "false"],
      lower (utf8 word) = utf8 word := by decide
  have htable : ∀ keyword ∈ ["if", "elseif", "while"], ∀ value ∈ ["true", "false"],
      message? ⟨utf8 keyword, utf8 value⟩ =
        (labels.find? fun l => l.keyword == keyword && l.value == value).map (·.message) := by
    decide
  rw [← htable keyword hkeyword value hvalue]
  simp only [message?, hlower, hlower', hstays keyword (List.mem_append_left _ hkeyword),
    hstays value (List.mem_append_right _ hvalue)]

/-- A condition without a long s is reported by the label of its keyword and value. -/
lemma Spelled.exists_label {keyword value : String} (hspelled : Spelled c keyword value)
    (hlong : ¬ SpelledLong c) (h : message? c = some message) :
    ∃ label ∈ labels, label.keyword = keyword ∧ label.value = value ∧ message = label.message := by
  obtain ⟨hkeyword, hvalue, hkeyword_spells, hvalue_spells⟩ := hspelled
  obtain ⟨hkeyword_long, hvalue_long⟩ := not_or.mp hlong
  have hkeyword_ascii := notMem_keyword hkeyword
  have hvalue_ascii := LiteralType.notMem_word (List.mem_append_left ["null"] hvalue)
  have hkeyword_lower := (hkeyword_spells.lower_eq_iff hkeyword_ascii).mpr hkeyword_long
  have hvalue_lower := (hvalue_spells.lower_eq_iff hvalue_ascii).mpr hvalue_long
  rw [message?_eq_label hkeyword hvalue hkeyword_lower hvalue_lower] at h
  obtain ⟨label, hfind, rfl⟩ := Option.map_eq_some_iff.mp h
  have hfits := List.find?_some hfind
  simp only [Bool.and_eq_true, beq_iff_eq] at hfits
  exact ⟨label, List.mem_of_find?_eq_some hfind, hfits.1, hfits.2, rfl⟩

/-- A keyword with a long s has no name. -/
lemma subject_of_hasLongS (h : HasLongS c.keyword) : subject (lower c.keyword) = [] := by
  have hne : ∀ word ∈ ["if", "elseif", "while"], lower c.keyword ≠ utf8 word := by
    intro word hword heq
    apply notMem_keyword hword
    rw [← heq]
    exact mem_lower_of_hasLongS h
  rw [subject, if_neg (hne _ (by simp)), if_neg (hne _ (by simp)), if_neg (hne _ (by simp))]

/-- A condition with a long s is reported by none of the labels: its keyword has no name then, or
the long s stands in the report. -/
lemma ne_label_of_spelledLong (hlong : SpelledLong c) (h : message? c = some message) :
    ∀ label ∈ labels, message ≠ label.message := by
  have hmessage : subject (lower c.keyword) ++ utf8 " is always " ++ lower c.value ++ utf8 "." =
      message := by
    simp only [message?] at h
    split at h
    · cases h
    · exact Option.some.inj h
  rintro label hlabel rfl
  rcases hlong with hkeyword | hvalue
  · have hheads : ∀ label ∈ labels, label.message.head? ≠ some (byte ' ') := by decide
    apply hheads label hlabel
    rw [← hmessage, subject_of_hasLongS hkeyword]
    rfl
  · have hascii : ∀ label ∈ labels, 0xC5 ∉ label.message := by decide
    apply hascii label hlabel
    rw [← hmessage]
    have hmem : 0xC5 ∈ lower c.value := mem_lower_of_hasLongS hvalue
    simp [hmem]

/-- **Which conditions are reported by their name**: those without a long s in their spelling.

**Proof sketch.** Without a long s lower case gives back the keyword and the value that were found,
and the reports of these are the labels. With a long s the report is none of them. -/
theorem exists_label_iff {keyword value : String} (hspelled : Spelled c keyword value)
    (h : message? c = some message) :
    (∃ label ∈ labels, message = label.message) ↔ ¬ SpelledLong c := by
  constructor
  · rintro ⟨label, hlabel, heq⟩ hlong
    exact ne_label_of_spelledLong hlong h label hlabel heq
  · intro hlong
    obtain ⟨label, hlabel, -, -, heq⟩ := hspelled.exists_label hlong h
    exact ⟨label, hlabel, heq⟩

/-- A condition that is reported by a label is spelled as the label says. -/
lemma Spelled.of_label {keyword value : String} {label : Label} (hspelled : Spelled c keyword value)
    (h : message? c = some message) (hlabel : label ∈ labels) (heq : message = label.message) :
    Spelled c label.keyword label.value := by
  have hlong : ¬ SpelledLong c := (exists_label_iff hspelled h).mp ⟨label, hlabel, heq⟩
  obtain ⟨own, hown, hkeyword, hvalue, hmessage⟩ := hspelled.exists_label hlong h
  have hdistinct : ∀ a ∈ labels, ∀ b ∈ labels, a.message = b.message →
      a.keyword = b.keyword ∧ a.value = b.value := by decide
  obtain ⟨hkeyword', hvalue'⟩ := hdistinct label hlabel own hown (heq.symm.trans hmessage)
  rw [hkeyword', hvalue', hkeyword, hvalue]
  exact hspelled

end Condition

/-! ## Comparisons -/

/-- The operands of a comparison are found by the patterns of literals. -/
lemma Comparison.exists_written_of_find? {c : Comparison} {before : Option UInt8} {s : Bytes}
    {length : Nat} (h : Comparison.find? before s = some (c, length)) :
    ∀ operand ∈ [c.left, c.right], ∃ type, LiteralType.Written type operand := by
  simp only [Comparison.find?] at h
  split at h
  · cases h
  · simp only [Option.bind_eq_bind, Option.bind_eq_some_iff, Prod.exists] at h
    obtain ⟨left, s₁, hleft, negated, s₂, -, right, s₃, hright, hc⟩ := h
    obtain ⟨rfl, -⟩ := Prod.mk.inj (Option.some.inj hc)
    simp only [List.mem_cons, List.not_mem_nil, or_false, forall_eq_or_imp, forall_eq]
    exact ⟨LiteralType.exists_written_of_literal? hleft,
      LiteralType.exists_written_of_literal? hright⟩

/-! ## Agreement -/

/-- **What a rule says agrees with what it found**, unless there is a long s. A finding about a
condition is the label of the keyword and the value that stand there, and it is a label at all
exactly if neither is spelled with a long s. An operand of a comparison is written by the patterns
of one type, and that is the type it gets, except for a boolean with a long s: this one is taken for
an integer.

**Proof sketch.** Everything found was found at some place of the source, so that its words are
spellings and its operands are literals. -/
theorem classification_agrees_iff (file source : Bytes) :
    (∀ d ∈ findings file source .constantCondition,
      ∃ hit ∈ scan Condition.find? source, finding? file Condition.message? hit = some d ∧
        ((∃ label ∈ Condition.labels, d.message = label.message) ↔ ¬ hit.value.SpelledLong) ∧
        ∀ label ∈ Condition.labels, d.message = label.message →
          hit.value.Spelled label.keyword label.value) ∧
    ∀ hit ∈ scan Comparison.find? source, ∀ operand ∈ [hit.value.left, hit.value.right],
      ∃ type, LiteralType.Written type operand ∧
        (∀ other, LiteralType.Written other operand → other = type) ∧
        (LiteralType.ofText operand = type ↔ ¬ (type = .bool ∧ HasLongS operand)) ∧
        (type = .bool → HasLongS operand → LiteralType.ofText operand = .int) := by
  constructor
  · intro d hd
    obtain ⟨hit, hhit, hfinding⟩ := List.mem_filterMap.mp hd
    obtain ⟨message, hmessage, rfl⟩ := Option.map_eq_some_iff.mp hfinding
    obtain ⟨before, rest, -, hfound⟩ := exists_of_mem_scan hhit
    obtain ⟨length, hfind⟩ := hfound.found
    obtain ⟨keyword, value, hspelled⟩ := Condition.exists_spelled_of_find? hfind
    refine ⟨hit, hhit, hfinding, Condition.exists_label_iff hspelled hmessage, ?_⟩
    intro label hlabel heq
    exact hspelled.of_label hmessage hlabel heq
  · intro hit hhit operand hoperand
    obtain ⟨before, rest, -, hfound⟩ := exists_of_mem_scan hhit
    obtain ⟨length, hfind⟩ := hfound.found
    obtain ⟨type, hwritten⟩ := Comparison.exists_written_of_find? hfind operand hoperand
    refine ⟨type, hwritten, fun other hother => hwritten.unique hother, hwritten.ofText_eq_iff, ?_⟩
    rintro rfl hlong
    exact hwritten.ofText_of_hasLongS hlong

/-- A source with a condition in capitals and a comparison. -/
def spelledSource : Bytes := utf8 "while (FALSE) {} -1.5 !== 'ſ';"

/-- The condition is reported by its label, and the long s in quotes belongs to a string. -/
theorem classification_agrees_iff_sample :
    (Diagnostic.finding [] 1 (utf8 "While loop condition is always false.") ∈
        findings [] spelledSource .constantCondition ∧
      ∃ hit ∈ scan Condition.find? spelledSource,
        ¬ hit.value.SpelledLong ∧ hit.value.Spelled "while" "false") ∧
    (⟨17, 1, ⟨utf8 "-1.5", true, utf8 "'ſ'"⟩⟩ ∈ scan Comparison.find? spelledSource ∧
      HasLongS (utf8 "'ſ'") ∧ LiteralType.Written .string (utf8 "'ſ'") ∧
      LiteralType.ofText (utf8 "'ſ'") = .string) := by
  obtain ⟨hconditions, hcomparisons⟩ := classification_agrees_iff [] spelledSource
  have hfinding : Diagnostic.finding [] 1 (utf8 "While loop condition is always false.") ∈
      findings [] spelledSource .constantCondition := by decide
  have hhit : ⟨17, 1, ⟨utf8 "-1.5", true, utf8 "'ſ'"⟩⟩ ∈ scan Comparison.find? spelledSource := by
    decide
  have hlabel : ⟨"while", "false", utf8 "While loop condition is always false."⟩ ∈
      Condition.labels := by simp [Condition.labels]
  obtain ⟨hit, hmem, -, hlabelled, hspelled⟩ := hconditions _ hfinding
  have hbody : ∀ b ∈ longS, b ≠ byte '\'' ∧ b ≠ byte '\n' := by
    simp only [longS, List.mem_cons, List.not_mem_nil, or_false, forall_eq_or_imp, forall_eq]
    decide
  have hstring : LiteralType.Written .string (utf8 "'ſ'") := .string (.inl rfl) hbody
  obtain ⟨type, -, hunique, hagrees, -⟩ := hcomparisons _ hhit (utf8 "'ſ'") (by simp)
  obtain rfl := hunique .string hstring
  exact ⟨⟨hfinding, hit, hmem, hlabelled.mp ⟨_, hlabel, rfl⟩, hspelled _ hlabel rfl⟩, hhit,
    by decide, hstring, hagrees.mpr (by simp)⟩

/-- A source with the long s in a keyword, in a condition and in an operand. -/
def longSource : Bytes := utf8 "elſeif (true) {} if (falſe) {} 1 === falſe;"

/-- Neither condition is reported by a label, and the boolean is taken for an integer. -/
theorem long_s_misread :
    (findings [] longSource .constantCondition ≠ [] ∧
      ∀ d ∈ findings [] longSource .constantCondition,
        ∀ label ∈ Condition.labels, d.message ≠ label.message) ∧
    ∃ hit ∈ scan Comparison.find? longSource, LiteralType.Written .bool hit.value.right ∧
      LiteralType.ofText hit.value.right = .int := by
  have hspells : Spells (utf8 "false") (utf8 "falſe") :=
    .letter rfl (.letter rfl (.letter rfl (.long (.letter rfl .nil))))
  have hhit : ⟨33, 1, ⟨utf8 "1", false, utf8 "falſe"⟩⟩ ∈ scan Comparison.find? longSource := by
    decide
  exact ⟨⟨by decide, by decide⟩, _, hhit, .bool (by simp) hspells, by decide⟩

end LintPool.Rule
