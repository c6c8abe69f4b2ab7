import LintPool.Text.Bytes

/-!
# Scanning source text

A rule looks for a construct at every position of a source text, from left to right, and goes on
behind a construct that it found. What it finds is located by offset and line.

## Main definitions

* `LintPool.Source.Hit` : something found, and where.
* `LintPool.Source.scan` : everything that a search finds.
* `LintPool.Source.blanks`, `LintPool.Source.word?` : pieces that constructs are made of.
-/

namespace LintPool.Source

/-! ## Pieces of constructs -/

/-- Whether a byte is white space between the words of a program. -/
def isSpace (b : UInt8) : Bool :=
  b == byte ' ' || b == byte '\t' || b == byte '\n' || b == byte '\x0c' || b == byte '\r'

/-- Whether a byte can be part of a name. -/
def isWordByte (b : UInt8) : Bool :=
  Bytes.isDigit b || (byte 'a' ≤ Bytes.lowerByte b && Bytes.lowerByte b ≤ byte 'z') || b == byte '_'

/-- The white space at the head of a text, and what follows it. -/
def blanks (s : Bytes) : Bytes × Bytes := (s.takeWhile isSpace, s.dropWhile isSpace)

/-- The white space at the head of a text, if there is any, and what follows it. -/
def blanks? (s : Bytes) : Option (Bytes × Bytes) :=
  if (s.head?.map isSpace).getD false then some (blanks s) else none

/-- A given byte at the head of a text, and what follows it. -/
def byte? (c : Char) : Bytes → Option (Bytes × Bytes)
  | b :: s => if b = byte c then some ([b], s) else none
  | [] => none

/-- A letter at the head of a text, in either case, and what follows it. The letter is given in
lower case. The long s is a spelling of the letter s. -/
def letter? (letter : UInt8) : Bytes → Option (Bytes × Bytes)
  | [] => none
  | b :: s =>
    if Bytes.lowerByte b = letter then some ([b], s)
    else if letter = byte 's' ∧ b = 0xC5 then
      match s with
      | c :: s => if c = 0xBF then some ([b, c], s) else none
      | [] => none
    else none

/-- A word at the head of a text, as it is spelled there, and what follows it. The word is given in
lower case. -/
def word? : (word s : Bytes) → Option (Bytes × Bytes)
  | [], s => some ([], s)
  | letter :: word, s => do
    let (first, s) ← letter? letter s
    let (others, s) ← word? word s
    return (first ++ others, s)

/-- The first of some words that stands at the head of a text. -/
def anyWord? (words : List String) (s : Bytes) : Option (Bytes × Bytes) :=
  words.findSome? fun word => word? (utf8 word) s

/-! ## Searching -/

/-- Something found in a source text. -/
structure Hit (α : Type) where
  /-- The number of bytes before it. -/
  offset : Nat
  /-- The number of its line, counted from one. -/
  line : Nat
  value : α
  deriving DecidableEq

/-- A position in a source text. -/
structure Position where
  offset : Nat := 0
  line : Nat := 1
  /-- The byte before the position. -/
  before : Option UInt8 := none

/-- The position behind a byte. -/
def Position.next (p : Position) (b : UInt8) : Position where
  offset := p.offset + 1
  line := if b = byte '\n' then p.line + 1 else p.line
  before := some b

/-- Auxiliary to `scan`: `skip` bytes belong to the last thing found, and `acc` holds what was found
so far, last first. -/
def scanAux {α : Type} (find? : Option UInt8 → Bytes → Option (α × Nat)) (p : Position) (skip : Nat)
    (acc : List (Hit α)) : Bytes → List (Hit α)
  | [] => acc.reverse
  | b :: s =>
    match skip with
    | skip + 1 => scanAux find? (p.next b) skip acc s
    | 0 =>
      match find? p.before (b :: s) with
      | none => scanAux find? (p.next b) 0 acc s
      | some (value, length) =>
        scanAux find? (p.next b) (length - 1)
          ({ offset := p.offset, line := p.line, value } :: acc) s

/-- Everything that `find?` finds in a text, from left to right and without overlaps. It is given
the byte before a position and the text from there on, and tells what it found and how long that is.
-/
def scan {α : Type} (find? : Option UInt8 → Bytes → Option (α × Nat)) (s : Bytes) : List (Hit α) :=
  scanAux find? {} 0 [] s

end LintPool.Source
