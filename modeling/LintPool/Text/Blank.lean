import LintPool.Text.Utf8

/-!
# White space

White space is the Unicode property: the ASCII blanks, NEXT LINE, the no-break spaces and the spaces
and separators of the general punctuation block. Trimming works on bytes, from either end, so that
damaged text keeps its bytes.

## Main definitions

* `LintPool.Blank.isBlank` : the property, as a table.
* `LintPool.Blank.trim` : a text without the white space at its two ends.
-/

namespace LintPool.Blank

/-- The code points with the property. -/
def codes : List Nat :=
  [0x09, 0x0A, 0x0B, 0x0C, 0x0D, 0x20, 0x85, 0xA0, 0x1680, 0x2000, 0x2001, 0x2002, 0x2003, 0x2004,
    0x2005, 0x2006, 0x2007, 0x2008, 0x2009, 0x200A, 0x2028, 0x2029, 0x202F, 0x205F, 0x3000]

/-- Whether a character is white space. -/
def isBlank (c : Char) : Bool := codes.contains c.toNat

/-- The encodings of the white space characters. -/
def encodings : List Bytes := codes.map fun n => Utf8.encode (Char.ofNat n)

/-- The encodings read from their last byte to their first. -/
def encodingsBackwards : List Bytes := encodings.map List.reverse

/-- What follows the first of `blanks` that `s` starts with. -/
def dropOne? (blanks : List Bytes) (s : Bytes) : Option Bytes :=
  blanks.findSome? fun blank => Bytes.dropPrefix? blank s

/-- No white space is encoded by nothing. -/
theorem nil_notMem_encodings : ∀ blank ∈ encodings, 0 < blank.length := by decide

/-- No white space is encoded by nothing, read backwards either. -/
theorem nil_notMem_encodingsBackwards : ∀ blank ∈ encodingsBackwards, 0 < blank.length := by decide

/-- Dropping a blank shortens the text. -/
theorem length_of_dropOne? {blanks : List Bytes} (hb : ∀ blank ∈ blanks, 0 < blank.length)
    {s rest : Bytes} (h : dropOne? blanks s = some rest) : rest.length < s.length := by
  obtain ⟨blank, hmem, hdrop⟩ := List.exists_of_findSome?_eq_some h
  have := hb blank hmem
  rw [Bytes.eq_append_of_dropPrefix? hdrop, List.length_append]
  omega

/-- A text without the white space at its start. -/
def trimStart (s : Bytes) : Bytes :=
  match _h : dropOne? encodings s with
  | some rest => trimStart rest
  | none => s
termination_by s.length
decreasing_by exact length_of_dropOne? nil_notMem_encodings _h

/-- Auxiliary to `trimEnd`: the text is given backwards. -/
def trimBackwards (s : Bytes) : Bytes :=
  match _h : dropOne? encodingsBackwards s with
  | some rest => trimBackwards rest
  | none => s
termination_by s.length
decreasing_by exact length_of_dropOne? nil_notMem_encodingsBackwards _h

/-- A text without the white space at its end. -/
def trimEnd (s : Bytes) : Bytes := (trimBackwards s.reverse).reverse

/-- A text without the white space at its two ends. -/
def trim (s : Bytes) : Bytes := trimEnd (trimStart s)

end LintPool.Blank
