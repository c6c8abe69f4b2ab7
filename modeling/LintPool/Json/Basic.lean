import LintPool.Text.Utf8

/-!
# JSON values

A value keeps what was written and forgets only the blanks between tokens: numbers keep their
digits, strings the text between their quotes with all escapes, objects their members in order with
duplicates. Hence a value determines one compact text, `Json.print`, and what a string or a number
means is a separate question, answered by `Json.unescape` and `Json.integer?`.

## Main definitions

* `LintPool.Json` : a JSON value.
* `LintPool.Json.print` : its compact text.
* `LintPool.Json.escape`, `LintPool.Json.unescape` : from a text to the body of a string and back.
* `LintPool.Json.text`, `LintPool.Json.int` : a text and an integer as values.
* `LintPool.Json.depth` : how deeply a value nests.
* `LintPool.Json.shield` : the same value with the characters escaped that mean something to HTML
  and scripts.
-/

namespace LintPool

/-- A JSON value, as written up to the blanks between its tokens. -/
inductive Json where
  | null
  | bool (b : Bool)
  /-- A number, by its literal. -/
  | number (literal : Bytes)
  /-- A string, by the text between its quotes. -/
  | string (body : Bytes)
  | array (items : List Json)
  /-- An object, by the bodies of its keys and the values, in order. -/
  | object (members : List (Bytes × Json))

namespace Json

/-! ## Writing strings -/

/-- The six-character escape of a code below 2^16. -/
def codeEscape (n : Nat) : Bytes := utf8 "\\u" ++ Bytes.hex 4 n

/-- Whether a character is escaped because HTML or a script could take it for its own. -/
def isShielded (c : Char) : Bool :=
  c = '<' || c = '>' || c = '&' || c.toNat = 0x2028 || c.toNat = 0x2029

/-- One character in the body of a string. -/
def escapeChar (c : Char) : Bytes :=
  if c = '"' ∨ c = '\\' then [byte '\\', byte c]
  else if c.toNat = 0x08 then utf8 "\\b"
  else if c.toNat = 0x0C then utf8 "\\f"
  else if c = '\n' then utf8 "\\n"
  else if c = '\r' then utf8 "\\r"
  else if c = '\t' then utf8 "\\t"
  else if c.toNat < 0x20 ∨ isShielded c then codeEscape c.toNat
  else Utf8.encode c

/-- Auxiliary to `escape`: `acc` is the body written so far, backwards. -/
def escapeAux (acc : Bytes) (s : Bytes) : Bytes :=
  match _h : Utf8.head? s with
  | some (c, rest) => escapeAux ((escapeChar c).reverseAux acc) rest
  | none =>
    match s with
    | [] => acc.reverse
    | _ :: rest => escapeAux ((escapeChar Utf8.replacement).reverseAux acc) rest
termination_by s.length
decreasing_by
  · exact Utf8.length_of_head? _h
  · simp

/-- The body of the string that means `s`; a damaged byte is written as U+FFFD. -/
def escape (s : Bytes) : Bytes := escapeAux [] s

/-! ## Reading strings -/

/-- The code written by four hexadecimal digits at the head of a text, and what follows. -/
def fourHex? : Bytes → Option (Nat × Bytes)
  | a :: b :: c :: d :: rest =>
    match Bytes.hexValue? a, Bytes.hexValue? b, Bytes.hexValue? c, Bytes.hexValue? d with
    | some a, some b, some c, some d => some (((a * 16 + b) * 16 + c) * 16 + d, rest)
    | _, _, _, _ => none
  | _ => none

/-- The code of an escape of the form backslash, `u`, four digits at the head of a text. -/
def codeEscape? : Bytes → Option (Nat × Bytes)
  | a :: b :: rest => if a = byte '\\' ∧ b = byte 'u' then fourHex? rest else none
  | _ => none

/-- Reading four digits consumes four bytes. -/
theorem length_of_fourHex? {s rest : Bytes} {n : Nat} (h : fourHex? s = some (n, rest)) :
    rest.length + 4 = s.length := by
  unfold fourHex? at h
  repeat' split at h
  all_goals simp_all

/-- Reading an escape by code consumes six bytes. -/
theorem length_of_codeEscape? {s rest : Bytes} {n : Nat} (h : codeEscape? s = some (n, rest)) :
    rest.length + 6 = s.length := by
  unfold codeEscape? at h
  split at h
  · split at h
    · have := length_of_fourHex? h
      simp only [List.length_cons]
      omega
    · simp at h
  · simp at h

/-- Whether a code is the first half of a surrogate pair. -/
def isHighSurrogate (n : Nat) : Bool := 0xD800 ≤ n && n ≤ 0xDBFF

/-- Whether a code is the second half of a surrogate pair. -/
def isLowSurrogate (n : Nat) : Bool := 0xDC00 ≤ n && n ≤ 0xDFFF

/-- The character of a surrogate pair. -/
def ofSurrogates (high low : Nat) : Char :=
  Char.ofNat (0x10000 + (high - 0xD800) * 0x400 + (low - 0xDC00))

/-- The character of an escape by code and what follows it in the text `rest`: a surrogate pair
makes one character, half of a pair makes U+FFFD. -/
def charOfCode (n : Nat) (rest : Bytes) : Char × Bytes :=
  if isHighSurrogate n then
    match codeEscape? rest with
    | some (m, rest') =>
      if isLowSurrogate m then (ofSurrogates n m, rest') else (Utf8.replacement, rest)
    | none => (Utf8.replacement, rest)
  else if isLowSurrogate n then (Utf8.replacement, rest)
  else (Char.ofNat n, rest)

/-- `charOfCode` leaves a part of the text it was given. -/
theorem length_charOfCode_le (n : Nat) (rest : Bytes) :
    (charOfCode n rest).2.length ≤ rest.length := by
  unfold charOfCode
  repeat' split
  all_goals simp_all
  have := length_of_codeEscape? ‹_›
  omega

/-- What a one-letter escape means. -/
def unescapeLetter (b : UInt8) : UInt8 :=
  if b = byte 'b' then 0x08
  else if b = byte 'f' then 0x0C
  else if b = byte 'n' then byte '\n'
  else if b = byte 'r' then byte '\r'
  else if b = byte 't' then byte '\t'
  else b

/-- The first character that the body of a string means, encoded, and the rest of the body. A
damaged byte means U+FFFD. -/
def unescapeHead : Bytes → Bytes × Bytes
  | [] => ([], [])
  | a :: s =>
    match codeEscape? (a :: s) with
    | some (n, rest) =>
      let (c, rest) := charOfCode n rest
      (Utf8.encode c, rest)
    | none =>
      if a = byte '\\' then
        match s with
        | b :: rest => ([unescapeLetter b], rest)
        | [] => ([a], [])
      else
        match Utf8.head? (a :: s) with
        | some (c, rest) => (Utf8.encode c, rest)
        | none => (Utf8.encode Utf8.replacement, s)

/-- Taking the first character off a body shortens it. -/
theorem length_unescapeHead_lt (a : UInt8) (s : Bytes) :
    (unescapeHead (a :: s)).2.length < (a :: s).length := by
  simp only [unescapeHead]
  split
  · rename_i n rest h
    have h₁ := length_of_codeEscape? h
    have h₂ := length_charOfCode_le n rest
    simp only [List.length_cons] at h₁ ⊢
    omega
  · split
    · split
      · simp only [List.length_cons]
        omega
      · simp
    · split
      · rename_i h
        exact Utf8.length_of_head? h
      · simp

/-- Auxiliary to `unescape`: `acc` is the text read so far, backwards. -/
def unescapeAux (acc : Bytes) : Bytes → Bytes
  | [] => acc.reverse
  | a :: s =>
    let head := unescapeHead (a :: s)
    unescapeAux (head.1.reverseAux acc) head.2
termination_by s => s.length
decreasing_by exact length_unescapeHead_lt a s

/-- The text that the body of a string means. -/
def unescape (body : Bytes) : Bytes := unescapeAux [] body

/-! ## Values from texts and numbers -/

/-- A text as a value. -/
def text (s : Bytes) : Json := .string (escape s)

/-- An integer as a value. -/
def int (n : Int) : Json := .number (Bytes.decimal n)

/-- A member of an object whose key needs no escapes. -/
def member (key : String) (value : Json) : Bytes × Json := (utf8 key, value)

/-- The integer that a number literal denotes: digits, perhaps after a minus sign, without point or
exponent, in the range of 64-bit integers. -/
def integer? (literal : Bytes) : Option Int64 :=
  let (negative, digits) :=
    match literal with
    | b :: rest => if b = byte '-' then (true, rest) else (false, literal)
    | [] => (false, [])
  if digits.isEmpty || !digits.all Bytes.isDigit then none
  else
    let n : Int := if negative then -(Bytes.digitsValue digits : Int) else Bytes.digitsValue digits
    if Int64.minValue.toInt ≤ n ∧ n ≤ Int64.maxValue.toInt then some (Int64.ofInt n) else none

/-! ## Printing -/

/-- A member's value is smaller than the list of members. -/
theorem sizeOf_snd_lt_of_mem {m : Bytes × Json} {members : List (Bytes × Json)} (h : m ∈ members) :
    sizeOf m.2 < sizeOf members := by
  have := List.sizeOf_lt_of_mem h
  obtain ⟨key, value⟩ := m
  simp only [Prod.mk.sizeOf_spec] at this
  simp only
  omega

/-- A string with its quotes. -/
def quote (body : Bytes) : Bytes := byte '"' :: body ++ [byte '"']

/-- The compact text of a value. -/
def print : Json → Bytes
  | .null => utf8 "null"
  | .bool true => utf8 "true"
  | .bool false => utf8 "false"
  | .number literal => literal
  | .string body => quote body
  | .array items => byte '[' :: Bytes.join [byte ','] (items.map print) ++ [byte ']']
  | .object members =>
    byte '{' ::
      Bytes.join [byte ','] (members.map fun m => quote m.1 ++ byte ':' :: print m.2) ++ [byte '}']
decreasing_by
  · simp only [Json.array.sizeOf_spec]
    have := List.sizeOf_lt_of_mem ‹_›
    omega
  · simp only [Json.object.sizeOf_spec]
    have := sizeOf_snd_lt_of_mem ‹_›
    omega

/-! ## Nesting -/

/-- The greatest number of containers of a value that lie in each other. -/
def depth : Json → Nat
  | .array items => (items.map depth).foldr max 0 + 1
  | .object members => (members.map fun m => depth m.2).foldr max 0 + 1
  | _ => 0
decreasing_by
  · simp only [Json.array.sizeOf_spec]
    have := List.sizeOf_lt_of_mem ‹_›
    omega
  · simp only [Json.object.sizeOf_spec]
    have := sizeOf_snd_lt_of_mem ‹_›
    omega

/-! ## Shielding -/

/-- The first character of a body, shielded if need be, and the rest of the body. -/
def shieldHead : Bytes → Bytes × Bytes
  | [] => ([], [])
  | a :: s =>
    match s with
    | b :: c :: rest =>
      if a = 0xE2 ∧ b = 0x80 ∧ (c = 0xA8 ∨ c = 0xA9) then
        (codeEscape (0x2000 + c.toNat % 128), rest)
      else if isShielded (Char.ofNat a.toNat) then (codeEscape a.toNat, s)
      else ([a], s)
    | _ => if isShielded (Char.ofNat a.toNat) then (codeEscape a.toNat, s) else ([a], s)

/-- Taking the first character off a body shortens it. -/
theorem length_shieldHead_lt (a : UInt8) (s : Bytes) :
    (shieldHead (a :: s)).2.length < (a :: s).length := by
  simp only [shieldHead]
  repeat' split
  all_goals simp
  omega

/-- Auxiliary to `shieldBody`: `acc` is the body written so far, backwards. -/
def shieldAux (acc : Bytes) : Bytes → Bytes
  | [] => acc.reverse
  | a :: s =>
    let head := shieldHead (a :: s)
    shieldAux (head.1.reverseAux acc) head.2
termination_by s => s.length
decreasing_by exact length_shieldHead_lt a s

/-- The body of a string with the characters of `isShielded` replaced by their escapes and every
other byte kept. -/
def shieldBody (body : Bytes) : Bytes := shieldAux [] body

/-- A value with all strings and keys shielded. -/
def shield : Json → Json
  | .string body => .string (shieldBody body)
  | .array items => .array (items.map shield)
  | .object members => .object (members.map fun m => (shieldBody m.1, shield m.2))
  | j => j
decreasing_by
  · simp only [Json.array.sizeOf_spec]
    have := List.sizeOf_lt_of_mem ‹_›
    omega
  · simp only [Json.object.sizeOf_spec]
    have := sizeOf_snd_lt_of_mem ‹_›
    omega

end Json

end LintPool
