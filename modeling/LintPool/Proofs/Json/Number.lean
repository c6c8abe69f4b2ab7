import LintPool.Proofs.Json.Text

/-!
# Numbers as JSON literals

A number literal is an optional sign, an integer part, an optional fraction and an optional
exponent. The reader of tokens accepts exactly these literals, as long as nothing follows that would
continue them. The decimal form of an integer is one of them and is read back as the integer.

## Main definitions

* `LintPool.Json.Literal` : the number literals.
* `LintPool.Json.Ends` : what cannot continue a literal.

## Main results

* `LintPool.Json.Literal.number?_append`, `LintPool.Json.literal_of_number?` : the reader of tokens
  accepts exactly the literals.
* `LintPool.Json.integer?_decimal` : an integer is read back.
-/

namespace LintPool.Json

open Token

/-! ## Literals -/

/-- Digits, at least one. -/
def SomeDigits (ds : Bytes) : Prop := ds ≠ [] ∧ ∀ b ∈ ds, Bytes.isDigit b = true

/-- The integer part of a literal: a zero alone, or digits that start with another. -/
def IsWhole (w : Bytes) : Prop := w = [byte '0'] ∨ SomeDigits w ∧ w.head? ≠ some (byte '0')

/-- The fraction of a literal. -/
def IsFraction (f : Bytes) : Prop := f = [] ∨ ∃ ds, f = byte '.' :: ds ∧ SomeDigits ds

/-- The exponent of a literal. -/
def IsExponent (e : Bytes) : Prop :=
  e = [] ∨ ∃ a sign ds, e = a :: (sign ++ ds) ∧ (a = byte 'e' ∨ a = byte 'E') ∧
    (sign = [] ∨ sign = [byte '+'] ∨ sign = [byte '-']) ∧ SomeDigits ds

/-- Number literals without a sign. -/
def Unsigned (l : Bytes) : Prop :=
  ∃ whole frac expo, l = whole ++ frac ++ expo ∧ IsWhole whole ∧ IsFraction frac ∧ IsExponent expo

/-- Number literals. -/
def Literal (l : Bytes) : Prop := Unsigned l ∨ ∃ u, l = byte '-' :: u ∧ Unsigned u

/-- Whether a byte could continue a literal. -/
def continuesNumber (b : UInt8) : Bool :=
  Bytes.isDigit b || b = byte '.' || b = byte 'e' || b = byte 'E'

/-- What starts with no byte that could continue a literal. -/
def Ends (rest : Bytes) : Prop := ∀ b ∈ rest.head?, continuesNumber b = false

/-! ## Reading literals as tokens -/

section Reading

variable {ds w f e l s rest : Bytes}

/-- Digits are read up to what is none. -/
lemma digits_append (hds : ∀ b ∈ ds, Bytes.isDigit b = true)
    (hrest : ∀ b ∈ rest.head?, Bytes.isDigit b = false) : digits (ds ++ rest) = (ds, rest) := by
  have hnone : rest.takeWhile Bytes.isDigit = [] ∧ rest.dropWhile Bytes.isDigit = rest := by
    cases rest with
    | nil => exact ⟨rfl, rfl⟩
    | cons b rest =>
      have hb : ¬ Bytes.isDigit b = true := by
        rw [hrest b rfl]
        decide
      exact ⟨List.takeWhile_cons_of_neg hb, List.dropWhile_cons_of_neg hb⟩
  rw [digits, List.takeWhile_append_of_pos hds, List.dropWhile_append_of_pos hds, hnone.1, hnone.2,
    List.append_nil]

/-- What is read as digits is digits. -/
lemma digits_eq (s : Bytes) :
    (∀ b ∈ (digits s).1, Bytes.isDigit b = true) ∧ s = (digits s).1 ++ (digits s).2 := by
  refine ⟨fun b hb => ?_, List.takeWhile_append_dropWhile.symm⟩
  have hall := List.all_takeWhile (p := Bytes.isDigit) (l := s)
  exact List.all_eq_true.mp hall b hb

/-- Some digits are read up to what is none. -/
lemma someDigits?_append (hds : SomeDigits ds)
    (hrest : ∀ b ∈ rest.head?, Bytes.isDigit b = false) :
    someDigits? (ds ++ rest) = some (ds, rest) := by
  rw [someDigits?, digits_append hds.2 hrest]
  exact if_neg (by simpa using hds.1)

/-- What is read as some digits is some digits. -/
lemma of_someDigits? (h : someDigits? s = some (ds, rest)) : SomeDigits ds ∧ s = ds ++ rest := by
  obtain ⟨hall, hs⟩ := digits_eq s
  unfold someDigits? at h
  split at h
  rename_i ds' rest' heq
  rw [heq] at hall hs
  split at h
  · cases h
  · rename_i hne
    obtain ⟨rfl, rfl⟩ := Prod.mk.inj (Option.some.inj h)
    exact ⟨⟨by simpa using hne, hall⟩, hs⟩

/-- An integer part is read up to what is no digit. -/
lemma integerPart?_append (hw : IsWhole w) (hrest : ∀ b ∈ rest.head?, Bytes.isDigit b = false) :
    integerPart? (w ++ rest) = some (w, rest) := by
  rcases hw with rfl | ⟨hw, hzero⟩
  · rw [List.singleton_append, integerPart?, if_pos rfl]
  · cases w with
    | nil => exact absurd rfl hw.1
    | cons a w =>
      have ha : a ≠ byte '0' := fun h => hzero (by rw [h]; rfl)
      rw [List.cons_append, integerPart?, if_neg ha, if_pos (hw.2 a List.mem_cons_self),
        ← List.cons_append, digits_append hw.2 hrest]

/-- What is read as an integer part is one. -/
lemma of_integerPart? (h : integerPart? s = some (w, rest)) : IsWhole w ∧ s = w ++ rest := by
  cases s with
  | nil => cases h
  | cons a s =>
    rw [integerPart?] at h
    split at h
    · rename_i ha
      obtain ⟨rfl, rfl⟩ := Prod.mk.inj (Option.some.inj h)
      exact ⟨.inl (by rw [ha]), rfl⟩
    · rename_i ha
      split at h
      · rename_i hdigit
        obtain ⟨hall, hs⟩ := digits_eq (a :: s)
        have hhead : (digits (a :: s)).1 = a :: s.takeWhile Bytes.isDigit :=
          List.takeWhile_cons_of_pos hdigit
        rw [Option.some.inj h] at hall hs hhead
        dsimp only at hall hs hhead
        refine ⟨.inr ⟨⟨?_, hall⟩, ?_⟩, hs⟩
        · rw [hhead]
          exact List.cons_ne_nil _ _
        · rw [hhead]
          exact fun h => ha (Option.some.inj h)
      · cases h

/-- A fraction is read up to what does not continue it. -/
lemma fraction?_append (hf : IsFraction f) (hrest : ∀ b ∈ rest.head?, Bytes.isDigit b = false)
    (hpoint : rest.head? ≠ some (byte '.')) : fraction? (f ++ rest) = some (f, rest) := by
  rcases hf with rfl | ⟨ds, rfl, hds⟩
  · cases rest with
    | nil => rfl
    | cons a rest =>
      have ha : a ≠ byte '.' := fun h => hpoint (by rw [h]; rfl)
      rw [List.nil_append, fraction?, if_neg ha]
  · rw [List.cons_append, fraction?, if_pos rfl, someDigits?_append hds hrest]
    rfl

/-- What is read as a fraction is one. -/
lemma of_fraction? (h : fraction? s = some (f, rest)) : IsFraction f ∧ s = f ++ rest := by
  cases s with
  | nil =>
    obtain ⟨rfl, rfl⟩ := Prod.mk.inj (Option.some.inj h)
    exact ⟨.inl rfl, rfl⟩
  | cons a s =>
    rw [fraction?] at h
    split at h
    · rename_i ha
      obtain ⟨⟨ds, r⟩, hread, heq⟩ := Option.map_eq_some_iff.mp h
      obtain ⟨rfl, rfl⟩ := Prod.mk.inj heq
      obtain ⟨hds, rfl⟩ := of_someDigits? hread
      exact ⟨.inr ⟨ds, by rw [ha], hds⟩, rfl⟩
    · obtain ⟨rfl, rfl⟩ := Prod.mk.inj (Option.some.inj h)
      exact ⟨.inl rfl, rfl⟩

/-- The sign of an exponent is read before its digits. -/
lemma exponentSign_append {sign : Bytes}
    (hsign : sign = [] ∨ sign = [byte '+'] ∨ sign = [byte '-']) (hds : SomeDigits ds) :
    exponentSign (sign ++ (ds ++ rest)) = (sign, ds ++ rest) := by
  rcases hsign with rfl | rfl | rfl
  · cases ds with
    | nil => exact absurd rfl hds.1
    | cons a ds =>
      have ha : ¬ (a = byte '+' ∨ a = byte '-') := by
        rintro (rfl | rfl)
        · exact absurd (hds.2 _ List.mem_cons_self) (by decide)
        · exact absurd (hds.2 _ List.mem_cons_self) (by decide)
      rw [List.nil_append, List.cons_append, exponentSign, if_neg ha]
  · rw [List.singleton_append, exponentSign, if_pos (.inl rfl)]
  · rw [List.singleton_append, exponentSign, if_pos (.inr rfl)]

/-- What is read as the sign of an exponent is one. -/
lemma exponentSign_eq (s : Bytes) :
    ((exponentSign s).1 = [] ∨ (exponentSign s).1 = [byte '+'] ∨
      (exponentSign s).1 = [byte '-']) ∧ s = (exponentSign s).1 ++ (exponentSign s).2 := by
  cases s with
  | nil => exact ⟨.inl rfl, rfl⟩
  | cons b s =>
    rw [exponentSign]
    split
    · rename_i hb
      rcases hb with rfl | rfl
      · exact ⟨.inr (.inl rfl), rfl⟩
      · exact ⟨.inr (.inr rfl), rfl⟩
    · exact ⟨.inl rfl, rfl⟩

/-- An exponent is read up to what does not continue it. -/
lemma exponent?_append (he : IsExponent e) (hrest : Ends rest) :
    exponent? (e ++ rest) = some (e, rest) := by
  rcases he with rfl | ⟨a, sign, ds, rfl, ha, hsign, hds⟩
  · cases rest with
    | nil => rfl
    | cons a rest =>
      have ha : ¬ (a = byte 'e' ∨ a = byte 'E') := by
        have hnot := hrest a rfl
        rintro (rfl | rfl)
        · exact absurd hnot (by decide)
        · exact absurd hnot (by decide)
      rw [List.nil_append, exponent?, if_neg ha]
  · have hdigits : ∀ b ∈ rest.head?, Bytes.isDigit b = false := by
      intro b hb
      have hnot := hrest b hb
      simp only [continuesNumber, Bool.or_eq_false_iff] at hnot
      exact hnot.1.1.1
    rw [List.cons_append, List.append_assoc, exponent?, if_pos ha, exponentSign_append hsign hds]
    simp only [someDigits?_append hds hdigits, Option.map_some]

/-- What is read as an exponent is one. -/
lemma of_exponent? (h : exponent? s = some (e, rest)) : IsExponent e ∧ s = e ++ rest := by
  cases s with
  | nil =>
    obtain ⟨rfl, rfl⟩ := Prod.mk.inj (Option.some.inj h)
    exact ⟨.inl rfl, rfl⟩
  | cons a s =>
    rw [exponent?] at h
    split at h
    · rename_i ha
      obtain ⟨hsign, hs⟩ := exponentSign_eq s
      obtain ⟨⟨ds, r⟩, hread, heq⟩ := Option.map_eq_some_iff.mp h
      obtain ⟨rfl, rfl⟩ := Prod.mk.inj heq
      obtain ⟨hds, hrest⟩ := of_someDigits? hread
      refine ⟨.inr ⟨a, _, ds, rfl, ha, hsign, hds⟩, ?_⟩
      rw [List.cons_append, List.append_assoc, ← hrest]
      exact congrArg (a :: ·) hs
    · obtain ⟨rfl, rfl⟩ := Prod.mk.inj (Option.some.inj h)
      exact ⟨.inl rfl, rfl⟩

/-- What follows a part of a literal: the first byte of the next part that is there. -/
lemma head?_append_of_forall {P : UInt8 → Prop} {x y : Bytes} (hx : ∀ b ∈ x.head?, P b)
    (hy : ∀ b ∈ y.head?, P b) : ∀ b ∈ (x ++ y).head?, P b := by
  cases x with
  | nil => exact hy
  | cons a x => exact hx

/-- **A literal without a sign is read up to what does not continue it.** -/
lemma Unsigned.unsigned?_append (hl : Unsigned l) (hrest : Ends rest) :
    unsigned? (l ++ rest) = some (l, rest) := by
  obtain ⟨w, f, e, rfl, hw, hf, he⟩ := hl
  have hend : ∀ b ∈ rest.head?, Bytes.isDigit b = false ∧ b ≠ byte '.' := by
    intro b hb
    have hnot := hrest b hb
    simp only [continuesNumber, Bool.or_eq_false_iff, decide_eq_false_iff_not] at hnot
    exact ⟨hnot.1.1.1, hnot.1.1.2⟩
  -- neither a digit nor a point starts the exponent and what follows it
  have hexpo : ∀ b ∈ (e ++ rest).head?, Bytes.isDigit b = false ∧ b ≠ byte '.' := by
    refine head?_append_of_forall ?_ hend
    rcases he with rfl | ⟨a, sign, ds, rfl, ha, -, -⟩
    · nofun
    · rintro b ⟨rfl⟩
      rcases ha with rfl | rfl <;> decide
  have hfrac : ∀ b ∈ (f ++ (e ++ rest)).head?, Bytes.isDigit b = false := by
    refine head?_append_of_forall ?_ fun b hb => (hexpo b hb).1
    rcases hf with rfl | ⟨ds, rfl, -⟩
    · nofun
    · rintro b ⟨rfl⟩
      decide
  have hpoint : (e ++ rest).head? ≠ some (byte '.') := fun h => (hexpo _ h).2 rfl
  rw [unsigned?, List.append_assoc, List.append_assoc, integerPart?_append hw hfrac]
  simp only [Option.bind_eq_bind, Option.bind_some]
  rw [fraction?_append hf (fun b hb => (hexpo b hb).1) hpoint]
  simp only [Option.bind_some]
  rw [exponent?_append he hrest]
  simp only [Option.bind_some]

/-- What is read as a literal without a sign is one. -/
lemma of_unsigned? (h : unsigned? s = some (l, rest)) : Unsigned l ∧ s = l ++ rest := by
  simp only [unsigned?, Option.bind_eq_bind, Option.bind_eq_some_iff] at h
  obtain ⟨⟨w, s₁⟩, hreadw, ⟨f, s₂⟩, hreadf, ⟨e, s₃⟩, hreade, heq⟩ := h
  obtain ⟨rfl, rfl⟩ := Prod.mk.inj (Option.some.inj heq)
  obtain ⟨hw, rfl⟩ := of_integerPart? hreadw
  obtain ⟨hf, hs₁⟩ := of_fraction? hreadf
  obtain ⟨he, hs₂⟩ := of_exponent? hreade
  dsimp only at hs₁ hs₂
  exact ⟨⟨w, f, e, rfl, hw, hf, he⟩, by rw [hs₁, hs₂, List.append_assoc, List.append_assoc]⟩

/-- The first byte of a literal without a sign is a digit. -/
lemma Unsigned.exists_cons (hl : Unsigned l) : ∃ a t, l = a :: t ∧ Bytes.isDigit a = true := by
  obtain ⟨w, f, e, rfl, hw, -, -⟩ := hl
  rcases hw with rfl | ⟨hw, -⟩
  · exact ⟨byte '0', f ++ e, rfl, by decide⟩
  · cases w with
    | nil => exact absurd rfl hw.1
    | cons a w => exact ⟨a, w ++ f ++ e, rfl, hw.2 a List.mem_cons_self⟩

/-- **A literal is read up to what does not continue it.** -/
theorem Literal.number?_append (hl : Literal l) (hrest : Ends rest) :
    number? (l ++ rest) = some (l, rest) := by
  rcases hl with hl | ⟨u, rfl, hu⟩
  · obtain ⟨a, t, rfl, ha⟩ := hl.exists_cons
    have hminus : a ≠ byte '-' := by
      rintro rfl
      exact absurd ha (by decide)
    rw [List.cons_append, number?, if_neg hminus, ← List.cons_append, hl.unsigned?_append hrest]
  · rw [List.cons_append, number?, if_pos rfl, hu.unsigned?_append hrest]
    rfl

/-- **What is read as a number is a literal.** -/
theorem literal_of_number? (h : number? s = some (l, rest)) : Literal l ∧ s = l ++ rest := by
  cases s with
  | nil => cases h
  | cons a s =>
    rw [number?] at h
    split at h
    · rename_i ha
      obtain ⟨⟨u, r⟩, hread, heq⟩ := Option.map_eq_some_iff.mp h
      obtain ⟨rfl, rfl⟩ := Prod.mk.inj heq
      obtain ⟨hu, rfl⟩ := of_unsigned? hread
      exact ⟨.inr ⟨u, by rw [ha], hu⟩, rfl⟩
    · obtain ⟨hu, hs⟩ := of_unsigned? h
      exact ⟨.inl hu, hs⟩

/-- The first byte of a literal is a digit or a minus sign. -/
lemma Literal.exists_cons (hl : Literal l) :
    ∃ a t, l = a :: t ∧ (a = byte '-' ∨ Bytes.isDigit a = true) := by
  rcases hl with hl | ⟨u, rfl, -⟩
  · obtain ⟨a, t, rfl, ha⟩ := hl.exists_cons
    exact ⟨a, t, rfl, .inr ha⟩
  · exact ⟨byte '-', u, rfl, .inl rfl⟩

/-- There is no control character and no blank in a literal. -/
lemma Literal.lt_of_mem (hl : Literal l) {a : UInt8} (ha : a ∈ l) : 0x20 < a := by
  have hdigit : ∀ b, Bytes.isDigit b = true → 0x20 < b := Utf8.forall_byte (by decide +kernel)
  have hdigits : ∀ {ds : Bytes}, SomeDigits ds → a ∈ ds → 0x20 < a :=
    fun hds ha => hdigit a (hds.2 a ha)
  have hunsigned : ∀ {u : Bytes}, Unsigned u → a ∈ u → 0x20 < a := by
    rintro u ⟨w, f, e, rfl, hw, hf, he⟩ ha
    rcases List.mem_append.mp ha with ha | ha
    · rcases List.mem_append.mp ha with ha | ha
      · rcases hw with rfl | ⟨hw, -⟩
        · rw [List.mem_singleton.mp ha]
          decide
        · exact hdigits hw ha
      · rcases hf with rfl | ⟨ds, rfl, hds⟩
        · cases ha
        rcases List.mem_cons.mp ha with rfl | ha
        · decide
        · exact hdigits hds ha
    · rcases he with rfl | ⟨b, sign, ds, rfl, hb, hsign, hds⟩
      · cases ha
      rcases List.mem_cons.mp ha with rfl | ha
      · rcases hb with rfl | rfl <;> decide
      rcases List.mem_append.mp ha with ha | ha
      · rcases hsign with rfl | rfl | rfl
        · cases ha
        · rw [List.mem_singleton.mp ha]
          decide
        · rw [List.mem_singleton.mp ha]
          decide
      · exact hdigits hds ha
  rcases hl with hl | ⟨u, rfl, hu⟩
  · exact hunsigned hl ha
  rcases List.mem_cons.mp ha with rfl | ha
  · decide
  · exact hunsigned hu ha

end Reading

/-! ## Decimal forms -/

section Decimal

/-- The digits of a number, from its last one on. -/
lemma natural_eq (n : Nat) :
    Bytes.natural n =
      if n < 10 then [byte (Nat.digitChar n)]
      else Bytes.natural (n / 10) ++ [byte (Nat.digitChar (n % 10))] := by
  rw [Bytes.natural, Nat.toDigits_eq_if (by decide)]
  split
  · rfl
  · rw [List.map_append]
    rfl

/-- What holds of a digit and is kept by a further digit behind holds of the digits of all
numbers. -/
lemma natural_induction {P : Nat → Bytes → Prop} (one : ∀ n < 10, P n [byte (Nat.digitChar n)])
    (more : ∀ n d s, 0 < n → d < 10 → P n s → P (10 * n + d) (s ++ [byte (Nat.digitChar d)]))
    (n : Nat) : P n (Bytes.natural n) := by
  induction n using Nat.strongRecOn with
  | _ n ih =>
    rw [natural_eq]
    split
    · rename_i hn
      exact one n hn
    · have hmore := more (n / 10) (n % 10) _ (by omega) (by omega) (ih (n / 10) (by omega))
      rwa [show 10 * (n / 10) + n % 10 = n by omega] at hmore

/-- The digits of a number are an integer part, and they denote the number. -/
lemma natural_spec (n : Nat) :
    SomeDigits (Bytes.natural n) ∧ (0 < n → (Bytes.natural n).head? ≠ some (byte '0')) ∧
      Bytes.digitsValue (Bytes.natural n) = n := by
  induction n using natural_induction with
  | one n hn =>
    have hall : ∀ n < 10, Bytes.isDigit (byte (Nat.digitChar n)) = true ∧
        (0 < n → byte (Nat.digitChar n) ≠ byte '0') ∧
        Bytes.digitValue (byte (Nat.digitChar n)) = n := by decide
    obtain ⟨hdigit, hzero, hvalue⟩ := hall n hn
    refine ⟨⟨nofun, fun b hb => ?_⟩, fun hpos h => hzero hpos (Option.some.inj h), ?_⟩
    · rw [List.mem_singleton.mp hb]
      exact hdigit
    · simpa [Bytes.digitsValue] using hvalue
  | more n d s hn hd ih =>
    have hall : ∀ d < 10, Bytes.isDigit (byte (Nat.digitChar d)) = true ∧
        Bytes.digitValue (byte (Nat.digitChar d)) = d := by decide
    obtain ⟨hdigit, hvalue⟩ := hall d hd
    obtain ⟨⟨hne, hdigits⟩, hzero, hn'⟩ := ih
    refine ⟨⟨by simp, fun b hb => ?_⟩, fun _ => ?_, ?_⟩
    · rcases List.mem_append.mp hb with hb | hb
      · exact hdigits b hb
      · rw [List.mem_singleton.mp hb]
        exact hdigit
    · cases s with
      | nil => exact absurd rfl hne
      | cons a s => exact hzero hn
    · rw [Bytes.digitsValue, List.foldl_append] at *
      rw [hn', List.foldl_cons, List.foldl_nil, hvalue]

/-- The digits of a number are a literal. -/
lemma unsigned_natural (n : Nat) : Unsigned (Bytes.natural n) := by
  refine ⟨Bytes.natural n, [], [], by simp, ?_, .inl rfl, .inl rfl⟩
  by_cases hn : n = 0
  · subst hn
    exact .inl rfl
  · obtain ⟨hdigits, hzero, -⟩ := natural_spec n
    exact .inr ⟨hdigits, hzero (by omega)⟩

/-- **The decimal form of an integer is a literal.** -/
theorem literal_decimal (n : Int) : Literal (Bytes.decimal n) := by
  cases n with
  | ofNat n => exact .inl (unsigned_natural n)
  | negSucc n => exact .inr ⟨_, rfl, unsigned_natural (n + 1)⟩

/-- Digits denote an integer if it is in range. -/
lemma integer?_of_digits (negative : Bool) {ds l : Bytes} (hds : SomeDigits ds)
    (hl : l = if negative then byte '-' :: ds else ds) {n : Int}
    (hn : n = if negative then -(Bytes.digitsValue ds : Int) else Bytes.digitsValue ds)
    (hrange : Int64.minValue.toInt ≤ n ∧ n ≤ Int64.maxValue.toInt) :
    integer? l = some (Int64.ofInt n) := by
  have hguard : ¬ (ds.isEmpty || !ds.all Bytes.isDigit) = true := by
    have hall : ds.all Bytes.isDigit = true := List.all_eq_true.mpr hds.2
    have hempty : ds.isEmpty = false := by simpa using hds.1
    rw [hall, hempty]
    decide
  cases negative with
  | true =>
    simp only [if_true] at hl hn
    subst hl
    simp only [integer?, if_true]
    rw [if_neg hguard, ← hn, if_pos hrange]
  | false =>
    simp only [Bool.false_eq_true, if_false] at hl hn
    subst hl
    cases l with
    | nil => exact absurd rfl hds.1
    | cons a l =>
      have hminus : a ≠ byte '-' := by
        rintro rfl
        exact absurd (hds.2 _ List.mem_cons_self) (by decide)
      simp only [integer?, if_neg hminus]
      rw [if_neg hguard]
      simp only [Bool.false_eq_true, if_false]
      rw [← hn, if_pos hrange]

/-- **An integer is read back from its decimal form.** -/
theorem integer?_decimal (n : Int64) : integer? (Bytes.decimal n.toInt) = some n := by
  have hrange : Int64.minValue.toInt ≤ n.toInt ∧ n.toInt ≤ Int64.maxValue.toInt :=
    ⟨n.minValue_le_toInt, n.toInt_le⟩
  have hself : Int64.ofInt n.toInt = n := Int64.ofInt_toInt n
  generalize n.toInt = k at hrange hself ⊢
  rw [← hself]
  cases k with
  | ofNat k =>
    obtain ⟨hdigits, -, hvalue⟩ := natural_spec k
    exact integer?_of_digits false hdigits rfl (by rw [hvalue]; rfl) hrange
  | negSucc k =>
    obtain ⟨hdigits, -, hvalue⟩ := natural_spec (k + 1)
    exact integer?_of_digits true hdigits rfl (by rw [hvalue]; rfl) hrange

end Decimal

end LintPool.Json
