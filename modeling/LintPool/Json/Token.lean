import LintPool.Json.Basic

/-!
# JSON tokens

A JSON text is a sequence of tokens with blanks between them. `Token.next?` reads the first token of
a text; it fails at the end of the text and where no token can be completed. A number ends at the
first byte that cannot continue it, so `01` is two tokens.

## Main definitions

* `LintPool.Json.Token` : a token.
* `LintPool.Json.Token.next?` : the first token of a text and what follows it.

## Main results

* `LintPool.Json.Token.length_of_next?` : a token has at least one byte.
-/

namespace LintPool.Json

/-- A JSON token. -/
inductive Token where
  | beginArray
  | endArray
  | beginObject
  | endObject
  | comma
  | colon
  /-- A string, a number, or one of the three words. -/
  | scalar (value : Json)

/-- Whether a byte is a blank between tokens. -/
def isBlank (b : UInt8) : Bool := b = byte ' ' || b = byte '\t' || b = byte '\n' || b = byte '\r'

namespace Token

/-! ## Numbers -/

/-- The digits at the head of a text and what follows them. -/
def digits (s : Bytes) : Bytes × Bytes := (s.takeWhile Bytes.isDigit, s.dropWhile Bytes.isDigit)

/-- The integer part of a number: a zero alone, or digits that start with another. -/
def integerPart? : Bytes → Option (Bytes × Bytes)
  | [] => none
  | a :: s =>
    if a = byte '0' then some ([a], s)
    else if Bytes.isDigit a then some (digits (a :: s))
    else none

/-- At least one digit. -/
def someDigits? (s : Bytes) : Option (Bytes × Bytes) :=
  let (ds, rest) := digits s
  if ds.isEmpty then none else some (ds, rest)

/-- The fraction of a number, which may be missing. -/
def fraction? : Bytes → Option (Bytes × Bytes)
  | [] => some ([], [])
  | a :: s =>
    if a = byte '.' then (someDigits? s).map fun (ds, rest) => (a :: ds, rest)
    else some ([], a :: s)

/-- The sign of an exponent, which may be missing. -/
def exponentSign : Bytes → Bytes × Bytes
  | [] => ([], [])
  | a :: s => if a = byte '+' ∨ a = byte '-' then ([a], s) else ([], a :: s)

/-- The exponent of a number, which may be missing. -/
def exponent? : Bytes → Option (Bytes × Bytes)
  | [] => some ([], [])
  | a :: s =>
    if a = byte 'e' ∨ a = byte 'E' then
      let (sign, s) := exponentSign s
      (someDigits? s).map fun (ds, rest) => (a :: (sign ++ ds), rest)
    else some ([], a :: s)

/-- A number without its sign. -/
def unsigned? (s : Bytes) : Option (Bytes × Bytes) := do
  let (whole, s) ← integerPart? s
  let (frac, s) ← fraction? s
  let (expo, s) ← exponent? s
  some (whole ++ frac ++ expo, s)

/-- A number. -/
def number? : Bytes → Option (Bytes × Bytes)
  | [] => none
  | a :: s =>
    if a = byte '-' then (unsigned? s).map fun (literal, rest) => (a :: literal, rest)
    else unsigned? (a :: s)

/-! ## Strings -/

/-- Whether a letter may follow a backslash. -/
def isEscapeLetter (b : UInt8) : Bool := (utf8 "\"\\/bfnrt").contains b

/-- The escape at the head of a text, and what follows it. -/
def escape? : Bytes → Option (Bytes × Bytes)
  | a :: b :: s =>
    if a = byte '\\' then
      if isEscapeLetter b then some ([a, b], s)
      else if b = byte 'u' then
        match fourHex? s with
        | some (_, rest) => some (a :: b :: s.take 4, rest)
        | none => none
      else none
    else none
  | _ => none

/-- An escape has at least two bytes. -/
theorem length_of_escape? {s rest out : Bytes} (h : escape? s = some (out, rest)) :
    rest.length < s.length := by
  unfold escape? at h
  split at h
  case h_2 => cases h
  case h_1 a b s =>
    simp only [List.length_cons]
    split at h
    case isFalse => cases h
    split at h
    case isTrue =>
      cases h
      omega
    split at h
    case isFalse => cases h
    split at h
    case h_2 => cases h
    case h_1 heq =>
      cases h
      have := length_of_fourHex? heq
      omega

/-- The body of a string whose opening quote has been read, and what follows the closing quote. No
control character may stand in it. `acc` is the body read so far, backwards. -/
def body? (acc : Bytes) : Bytes → Option (Bytes × Bytes)
  | [] => none
  | a :: s =>
    if a = byte '"' then some (acc.reverse, s)
    else if a = byte '\\' then
      match _h : escape? (a :: s) with
      | some (escape, rest) => body? (escape.reverseAux acc) rest
      | none => none
    else if a < 0x20 then none
    else body? (a :: acc) s
termination_by s => s.length
decreasing_by
  · exact length_of_escape? _h
  · simp

/-! ## All tokens -/

/-- The words that are values. -/
def words : List (Bytes × Json) :=
  [(utf8 "null", .null), (utf8 "true", .bool true), (utf8 "false", .bool false)]

/-- The word at the head of a text. -/
def word? (s : Bytes) : Option (Json × Bytes) :=
  words.findSome? fun (word, value) => (Bytes.dropPrefix? word s).map fun rest => (value, rest)

/-- The token that a single byte is. -/
def punctuation? (b : UInt8) : Option Token :=
  if b = byte '[' then some .beginArray
  else if b = byte ']' then some .endArray
  else if b = byte '{' then some .beginObject
  else if b = byte '}' then some .endObject
  else if b = byte ',' then some .comma
  else if b = byte ':' then some .colon
  else none

/-- The token that starts with the first byte of a text, and what follows it. -/
def here? : Bytes → Option (Token × Bytes)
  | [] => none
  | a :: s =>
    match punctuation? a with
    | some token => some (token, s)
    | none =>
      if a = byte '"' then (body? [] s).map fun (body, rest) => (.scalar (.string body), rest)
      else if a = byte '-' ∨ Bytes.isDigit a then
        (number? (a :: s)).map fun (literal, rest) => (.scalar (.number literal), rest)
      else (word? (a :: s)).map fun (value, rest) => (.scalar value, rest)

/-- The first token of a text and what follows it. -/
def next? (s : Bytes) : Option (Token × Bytes) := here? (s.dropWhile isBlank)

/-! ## Tokens are not empty -/

/-- Digits and what follows them make up the text. -/
theorem length_digits (s : Bytes) : (digits s).1.length + (digits s).2.length = s.length := by
  rw [← List.length_append, digits, List.takeWhile_append_dropWhile]

/-- The integer part has at least one digit. -/
theorem length_of_integerPart? {s rest ds : Bytes} (h : integerPart? s = some (ds, rest)) :
    rest.length < s.length := by
  unfold integerPart? at h
  repeat' split at h
  all_goals simp_all
  · have := length_digits (‹UInt8› :: ‹List UInt8›)
    rename_i a s _ ha
    simp only [digits, Prod.mk.injEq] at h
    obtain ⟨-, rfl⟩ := h
    simp only [List.dropWhile_cons, ha, if_true]
    have := (List.dropWhile_suffix Bytes.isDigit (l := s)).length_le
    omega

/-- What follows some digits is not longer than the text. -/
theorem length_of_someDigits? {s rest ds : Bytes} (h : someDigits? s = some (ds, rest)) :
    rest.length ≤ s.length := by
  have := length_digits s
  unfold someDigits? at h
  split at h
  simp_all
  omega

/-- What follows a fraction is not longer than the text. -/
theorem length_of_fraction? {s rest ds : Bytes} (h : fraction? s = some (ds, rest)) :
    rest.length ≤ s.length := by
  unfold fraction? at h
  split at h
  · simp_all
  · split at h
    · simp only [Option.map_eq_some_iff, Prod.mk.injEq, Prod.exists] at h
      obtain ⟨_, _, h, -, rfl⟩ := h
      have := length_of_someDigits? h
      simp only [List.length_cons]
      omega
    · simp_all

/-- What follows an exponent's sign is not longer than the text. -/
theorem length_exponentSign (s : Bytes) : (exponentSign s).2.length ≤ s.length := by
  unfold exponentSign
  repeat' split
  all_goals simp

/-- What follows an exponent is not longer than the text. -/
theorem length_of_exponent? {s rest ds : Bytes} (h : exponent? s = some (ds, rest)) :
    rest.length ≤ s.length := by
  unfold exponent? at h
  split at h
  · simp_all
  · rename_i a s
    split at h
    · simp only [Option.map_eq_some_iff, Prod.mk.injEq, Prod.exists] at h
      obtain ⟨_, _, h, -, rfl⟩ := h
      have h₁ := length_of_someDigits? h
      have h₂ := length_exponentSign s
      simp only [List.length_cons]
      omega
    · simp_all

/-- A number without its sign has at least one byte. -/
theorem length_of_unsigned? {s rest literal : Bytes} (h : unsigned? s = some (literal, rest)) :
    rest.length < s.length := by
  simp only [unsigned?, Option.bind_eq_bind, Option.bind_eq_some_iff] at h
  obtain ⟨⟨_, s₁⟩, h₁, ⟨_, s₂⟩, h₂, ⟨_, s₃⟩, h₃, h⟩ := h
  have h₁ := length_of_integerPart? h₁
  have h₂ := length_of_fraction? h₂
  have h₃ := length_of_exponent? h₃
  simp only [Option.some.injEq, Prod.mk.injEq] at h h₁ h₂ h₃
  obtain ⟨-, rfl⟩ := h
  omega

/-- A number has at least one byte. -/
theorem length_of_number? {s rest literal : Bytes} (h : number? s = some (literal, rest)) :
    rest.length < s.length := by
  unfold number? at h
  split at h
  · simp at h
  · split at h
    · simp only [Option.map_eq_some_iff, Prod.mk.injEq, Prod.exists] at h
      obtain ⟨_, _, h, -, rfl⟩ := h
      have := length_of_unsigned? h
      simp only [List.length_cons]
      omega
    · exact length_of_unsigned? h

/-- A string body is followed by less than the text. -/
theorem length_of_body? {acc s rest body : Bytes} (h : body? acc s = some (body, rest)) :
    rest.length < s.length := by
  fun_induction body? acc s with
  | case1 | case4 | case5 => simp at h
  | case2 => simp_all
  | case3 acc s _ _ _ h₁ ih =>
    have h₁ := length_of_escape? h₁
    have h₂ := ih h
    omega
  | case6 acc a s _ _ _ ih =>
    have := ih h
    simp only [List.length_cons]
    omega

/-- A word has at least one byte. -/
theorem length_of_word? {s rest : Bytes} {value : Json} (h : word? s = some (value, rest)) :
    rest.length < s.length := by
  obtain ⟨⟨word, _⟩, hmem, h⟩ := List.exists_of_findSome?_eq_some h
  simp only [Option.map_eq_some_iff, Prod.mk.injEq] at h
  obtain ⟨_, hdrop, -, rfl⟩ := h
  have hpos : 0 < word.length := by
    simp only [words, List.mem_cons, Prod.mk.injEq, List.not_mem_nil, or_false] at hmem
    rcases hmem with ⟨rfl, -⟩ | ⟨rfl, -⟩ | ⟨rfl, -⟩ <;> decide
  rw [Bytes.eq_append_of_dropPrefix? hdrop, List.length_append]
  omega

/-- A token has at least one byte. -/
theorem length_of_here? {s rest : Bytes} {token : Token} (h : here? s = some (token, rest)) :
    rest.length < s.length := by
  unfold here? at h
  split at h
  · simp at h
  · split at h
    · simp_all
    · split at h
      · simp only [Option.map_eq_some_iff, Prod.mk.injEq, Prod.exists] at h
        obtain ⟨_, _, h, -, rfl⟩ := h
        have := length_of_body? h
        simp only [List.length_cons]
        omega
      · split at h
        · simp only [Option.map_eq_some_iff, Prod.mk.injEq, Prod.exists] at h
          obtain ⟨_, _, h, -, rfl⟩ := h
          exact length_of_number? h
        · simp only [Option.map_eq_some_iff, Prod.mk.injEq, Prod.exists] at h
          obtain ⟨_, _, h, -, rfl⟩ := h
          exact length_of_word? h

/-- Reading a token consumes at least one byte. -/
theorem length_of_next? {s rest : Bytes} {token : Token} (h : next? s = some (token, rest)) :
    rest.length < s.length := by
  have h₁ := length_of_here? h
  have h₂ := (List.dropWhile_suffix isBlank (l := s)).length_le
  omega

end Token

end LintPool.Json
