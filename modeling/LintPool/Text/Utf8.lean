import LintPool.Text.Bytes

/-!
# UTF-8

Reading scalar values off a byte string that may hold anything. A byte at which no valid encoding
starts counts as one damaged character of its own; readers that need a character in its place take
U+FFFD.

## Main definitions

* `LintPool.Utf8.head?` : the scalar value at the head of a text and the text after it.
* `LintPool.Utf8.encode` : the encoding of one scalar value.
* `LintPool.Utf8.scalars` : all characters of a text, damaged bytes read as U+FFFD.
* `LintPool.Utf8.isValid` : no byte is damaged.
* `LintPool.Utf8.mend` : damaged bytes replaced by the encoding of U+FFFD.

## Main results

* `LintPool.Utf8.length_of_head?` : reading a scalar consumes at least one byte.
-/

namespace LintPool.Utf8

/-- The character that stands for a damaged byte. -/
def replacement : Char := Char.ofNat 0xFFFD

/-- Whether `b` can continue an encoding. -/
def isContinuation (b : UInt8) : Bool := 0x80 ≤ b && b ≤ 0xBF

/-- The code that a lead byte and its continuation bytes carry: `bits` payload bits of the lead,
then six of each continuation byte. -/
def code (lead : Nat) (continuation : List UInt8) : Nat :=
  continuation.foldl (fun n b => 64 * n + b.toNat % 64) lead

/-- The scalar value at the head of a text and the text after it; nothing if the text is empty or
its first byte is damaged. Overlong forms, surrogates and values past U+10FFFF are damaged. -/
def head? : Bytes → Option (Char × Bytes)
  | [] => none
  | a :: s =>
    if a < 0x80 then some (Char.ofNat a.toNat, s)
    else if a < 0xC2 then none
    else if a < 0xE0 then
      match s with
      | b :: rest =>
        if isContinuation b then some (Char.ofNat (code (a.toNat % 32) [b]), rest) else none
      | _ => none
    else if a < 0xF0 then
      match s with
      | b :: c :: rest =>
        let n := code (a.toNat % 16) [b, c]
        if isContinuation b && isContinuation c && 0x800 ≤ n && !(0xD800 ≤ n && n ≤ 0xDFFF) then
          some (Char.ofNat n, rest)
        else none
      | _ => none
    else if a < 0xF5 then
      match s with
      | b :: c :: d :: rest =>
        let n := code (a.toNat % 8) [b, c, d]
        if isContinuation b && isContinuation c && isContinuation d && 0x10000 ≤ n &&
            n ≤ 0x10FFFF then
          some (Char.ofNat n, rest)
        else none
      | _ => none
    else none

/-- Reading a scalar value consumes at least one byte. -/
theorem length_of_head? {s rest : Bytes} {c : Char} (h : head? s = some (c, rest)) :
    rest.length < s.length := by
  cases s with
  | nil => simp [head?] at h
  | cons a s =>
    unfold head? at h
    repeat' split at h
    all_goals simp_all
    all_goals grind

/-- The encoding of one scalar value. -/
def encode (c : Char) : Bytes := String.utf8EncodeChar c

/-- Auxiliary to `scalars`: `acc` holds the characters read so far, last first. -/
def scalarsAux (acc : List Char) (s : Bytes) : List Char :=
  match _h : head? s with
  | some (c, rest) => scalarsAux (c :: acc) rest
  | none =>
    match s with
    | [] => acc.reverse
    | _ :: rest => scalarsAux (replacement :: acc) rest
termination_by s.length
decreasing_by
  · exact length_of_head? _h
  · simp

/-- The characters of a text; a damaged byte reads as U+FFFD. -/
def scalars (s : Bytes) : List Char := scalarsAux [] s

/-- Whether a text is the encoding of some characters. -/
def isValid (s : Bytes) : Bool :=
  match _h : head? s with
  | some (_, rest) => isValid rest
  | none => s.isEmpty
termination_by s.length
decreasing_by exact length_of_head? _h

/-- The encoding of a list of characters. -/
def encodeAll (cs : List Char) : Bytes := cs.flatMap encode

/-- A text with each damaged byte replaced by the encoding of U+FFFD. -/
def mend (s : Bytes) : Bytes := encodeAll (scalars s)

end LintPool.Utf8
