import LintPool.Number.Numeral
import LintPool.Text.Blank
import LintPool.Text.Digit
import LintPool.Text.LowerCase
import LintPool.Text.Quoted

/-!
# Memory limits

A memory limit is a number of bytes, perhaps with a unit, or `-1` for no limit. The units K, M and G
are binary; longer names are decimal (`kB`) or binary (`KiB`).

## Main definitions

* `LintPool.Size.parse` : a number of bytes with a unit.
* `LintPool.MemoryLimit.parse` : a memory limit.
-/

namespace LintPool

/-! ## Sizes -/

/-- Why a text is no size. -/
inductive Size.ParseError where
  /-- The number cannot be read. -/
  | badNumber (text : Bytes)
  /-- The number is too large to compute with. -/
  | hugeNumber (text : Bytes)
  | tooLarge (text : Bytes)
  | unknownUnit (name : Bytes)
  deriving DecidableEq

namespace Size

/-- The message of a reading error. -/
def ParseError.message : ParseError → Bytes
  | .badNumber text => utf8 "strconv.ParseFloat: parsing " ++ quoted text ++ utf8 ": invalid syntax"
  | .hugeNumber text =>
    utf8 "strconv.ParseFloat: parsing " ++ quoted text ++ utf8 ": value out of range"
  | .tooLarge text => utf8 "too large: " ++ text
  | .unknownUnit name => utf8 "unhandled size name: " ++ name

/-- The letters of the units, from small to large. -/
def letters : List Char := ['k', 'm', 'g', 't', 'p', 'e']

/-- The units by name, in lower case. A letter alone or with a `b` is decimal, with an `i` it is
binary. -/
def units : List (Bytes × Nat) :=
  (utf8 "", 1) :: (utf8 "b", 1) ::
    letters.zipIdx.flatMap fun (c, k) =>
      let decimal := Nat.pow 1000 (k + 1)
      let binary := Nat.pow 1024 (k + 1)
      [([byte c], decimal), ([byte c, byte 'b'], decimal), ([byte c, byte 'i'], binary),
        ([byte c, byte 'i', byte 'b'], binary)]

/-- Whether a character may be part of the number of a size. -/
def isNumberChar (c : Char) : Bool := Digit.isDigit c || c = '.' || c = ','

/-- The number of characters that may be part of the number at the beginning of a size. -/
def numberLength (s : Bytes) : Nat := ((Utf8.scalars s).takeWhile isNumberChar).length

/-- The number of bytes in a text such as `1.5 GB`. The number takes as many bytes as it has
characters, commas in it are ignored, and the product with the unit is rounded as a whole. -/
def parse (s : Bytes) : Except ParseError Nat :=
  let length := numberLength s
  let number := (s.take length).filter (· ≠ byte ',')
  match Numeral.Decimal.mantissa? number with
  | some (digits, places, []) =>
    match Numeral.Decimal.magnitude? { digits, places } with
    | none => .error (.hugeNumber number)
    | some f =>
      let name := LowerCase.lowerText (Blank.trim (s.drop length))
      match units.lookup name with
      | none => .error (.unknownUnit name)
      | some unit =>
        match (Binary64.ofNat? unit).bind (Binary64.mul? f) with
        | none => .error (.tooLarge s)
        | some product =>
          if Nat.pow 2 64 ≤ product.truncate then .error (.tooLarge s) else .ok product.truncate
  | _ => .error (.badNumber number)

end Size

/-! ## Limits -/

/-- Why a text is no memory limit. -/
inductive MemoryLimit.ParseError where
  | empty
  | badSize (text : Bytes) (e : Size.ParseError)
  | zero
  deriving DecidableEq

namespace MemoryLimit

/-- The message of a reading error. -/
def ParseError.message : ParseError → Bytes
  | .empty => utf8 "invalid configuration: empty memory limit"
  | .badSize text e =>
    utf8 "invalid configuration: memory limit " ++ quoted text ++ utf8 ": " ++ e.message
  | .zero => utf8 "invalid configuration: memory limit must be positive or -1"

/-- The limit that is none. -/
def unlimited : Int64 := -1

/-- A size whose last letter is K, M or G, of either case, in the long name of the binary unit. -/
def expand (s : Bytes) : Bytes :=
  match s.getLast? with
  | some last =>
    if (utf8 "kKmMgG").contains last then s.dropLast ++ Bytes.upperByte last :: utf8 "iB" else s
  | none => s

/-- A memory limit. A size of 2 ^ 63 or more wraps around. -/
def parse (s : Bytes) : Except ParseError Int64 :=
  let s := Blank.trim s
  if s = utf8 "-1" then .ok unlimited
  else if s.isEmpty then .error .empty
  else
    let s := expand s
    match Size.parse s with
    | .error e => .error (.badSize s e)
    | .ok n => if n = 0 then .error .zero else .ok (Int64.ofNat n)

end MemoryLimit

end LintPool
