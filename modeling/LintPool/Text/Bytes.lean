/-!
# Byte strings

File names, source texts and wire traffic need not be valid UTF-8, so all text of the program is a
list of bytes. Lists keep the definitions open to induction; every loop over a text that can be
large (a frame of four megabytes) is tail recursive.

## Main definitions

* `LintPool.Bytes` : a byte string.
* `LintPool.utf8` : the bytes of a string literal.
* `LintPool.Bytes.decimal` : the decimal form of an integer.
* `LintPool.Bytes.splitOn`, `LintPool.Bytes.join` : cutting at a separator byte and joining again.
-/

namespace LintPool

/-- A byte string. -/
abbrev Bytes := List UInt8

/-- The UTF-8 bytes of a string. -/
def utf8 (s : String) : Bytes := s.toByteArray.data.toList

/-- The byte of an ASCII character. -/
@[inline] def byte (c : Char) : UInt8 := c.toNat.toUInt8

namespace Bytes

/-- The parts of `s` with `sep` between every two of them. -/
def join (sep : Bytes) (parts : List Bytes) : Bytes := sep.intercalate parts

/-- Auxiliary to `splitOn`: `part` is the current part and `parts` the finished ones, both
backwards. -/
def splitOnAux (sep : UInt8) (part : Bytes) (parts : List Bytes) : Bytes → List Bytes
  | [] => (part.reverse :: parts).reverse
  | b :: s =>
    if b = sep then splitOnAux sep [] (part.reverse :: parts) s
    else splitOnAux sep (b :: part) parts s

/-- The parts of `s` between the occurrences of `sep`; there is always at least one part. -/
def splitOn (sep : UInt8) (s : Bytes) : List Bytes := splitOnAux sep [] [] s

/-- The newline-terminated lines of `s`, without their newlines; a last line may lack its newline.
-/
def lines (s : Bytes) : List Bytes :=
  let parts := splitOn (byte '\n') s
  if parts.getLast? = some [] then parts.dropLast else parts

/-- Whether `b` is an ASCII digit. -/
def isDigit (b : UInt8) : Bool := byte '0' ≤ b && b ≤ byte '9'

/-- The value of an ASCII digit. -/
def digitValue (b : UInt8) : Nat := b.toNat - 48

/-- The natural number that a list of ASCII digits denotes. -/
def digitsValue (s : Bytes) : Nat := s.foldl (fun n b => 10 * n + digitValue b) 0

/-- The decimal digits of a natural number. -/
def natural (n : Nat) : Bytes := (Nat.toDigits 10 n).map byte

/-- The decimal form of an integer, with a minus sign if it is negative. -/
def decimal : Int → Bytes
  | .ofNat n => natural n
  | .negSucc n => byte '-' :: natural (n + 1)

/-- One lower-case hexadecimal digit. -/
def hexDigit (n : Nat) : UInt8 := byte (Nat.digitChar (n % 16))

/-- The lowest `width` hexadecimal digits of `n`, lower case. -/
def hex : (width : Nat) → (n : Nat) → Bytes
  | 0, _ => []
  | width + 1, n => hex width (n / 16) ++ [hexDigit n]

/-- The value of a hexadecimal digit of either case. -/
def hexValue? (b : UInt8) : Option Nat :=
  if isDigit b then some (digitValue b)
  else if byte 'a' ≤ b ∧ b ≤ byte 'f' then some (b.toNat - 87)
  else if byte 'A' ≤ b ∧ b ≤ byte 'F' then some (b.toNat - 55)
  else none

/-- An ASCII letter in lower case; other bytes stay. -/
def lowerByte (b : UInt8) : UInt8 := if byte 'A' ≤ b ∧ b ≤ byte 'Z' then b + 32 else b

/-- An ASCII letter in upper case; other bytes stay. -/
def upperByte (b : UInt8) : UInt8 := if byte 'a' ≤ b ∧ b ≤ byte 'z' then b - 32 else b

/-- What follows `lead` in `s`, if `s` starts with it. -/
def dropPrefix? : (lead s : Bytes) → Option Bytes
  | [], s => some s
  | _ :: _, [] => none
  | a :: lead, b :: s => if a = b then dropPrefix? lead s else none

/-- Whether the last bytes of `s` are `tail`. -/
def endsWith (s tail : Bytes) : Bool := tail.isSuffixOf s

/-- Lexicographic order by bytes, as a boolean test. -/
def le (a b : Bytes) : Bool := decide (a ≤ b)

/-- What `dropPrefix?` leaves is the text without the lead. -/
theorem eq_append_of_dropPrefix? {lead s rest : Bytes} (h : dropPrefix? lead s = some rest) :
    s = lead ++ rest := by
  induction lead generalizing s with
  | nil => simpa [dropPrefix?] using h
  | cons a lead ih =>
    cases s with
    | nil => simp [dropPrefix?] at h
    | cons b s =>
      by_cases hab : a = b
      · simp only [dropPrefix?, hab, if_true] at h
        rw [hab, ih h, List.cons_append]
      · simp [dropPrefix?, hab] at h

end Bytes

end LintPool
