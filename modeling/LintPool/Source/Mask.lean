import LintPool.Text.Bytes

/-!
# Masked source

Rules look at a source text in which comments are blanked out. Masking replaces bytes one by one, so
every offset and every line break of the source stays where it is. Text in quotes is kept, and a
quote ends at the end of its line at the latest.

## Main definitions

* `LintPool.Source.Mode` : where in a source text a byte stands.
* `LintPool.Source.mask` : the masked source.
-/

namespace LintPool.Source

/-- Where in a source text a byte stands. -/
inductive Mode where
  | code
  | quoted (quote : UInt8)
  /-- After a backslash inside quotes. -/
  | escaped (quote : UInt8)
  | lineComment
  | blockComment
  /-- On the slash that ends a block comment. -/
  | blockEnd
  deriving DecidableEq

/-- Whether the byte `b`, followed by `next`, starts a comment to the end of the line. `#[` starts
an attribute and no comment. -/
def startsLine (b : UInt8) (next : Option UInt8) : Bool :=
  (b == byte '#' && next != some (byte '[')) || (b == byte '/' && next == some (byte '/'))

/-- Whether the byte `b`, followed by `next`, starts a block comment. -/
def startsBlock (b : UInt8) (next : Option UInt8) : Bool :=
  b == byte '/' && next == some (byte '*')

/-- A byte of a comment: line breaks stay, all else becomes a space. -/
def blank (b : UInt8) : UInt8 := if b = byte '\n' then b else byte ' '

/-- The mode after the byte `b`, which is followed by `next`, and the byte that stands for it. -/
def Mode.step (mode : Mode) (b : UInt8) (next : Option UInt8) : Mode × UInt8 :=
  match mode with
  | .code =>
    if b = byte '\'' ∨ b = byte '"' then (.quoted b, b)
    else if startsLine b next then (.lineComment, byte ' ')
    else if startsBlock b next then (.blockComment, byte ' ')
    else (.code, b)
  | .quoted quote =>
    if b = quote ∨ b = byte '\n' then (.code, b)
    else if b = byte '\\' then (.escaped quote, b)
    else (.quoted quote, b)
  | .escaped quote => (.quoted quote, b)
  | .lineComment => (if b = byte '\n' then .code else .lineComment, blank b)
  | .blockComment =>
    if b = byte '*' ∧ next = some (byte '/') then (.blockEnd, byte ' ')
    else (.blockComment, blank b)
  | .blockEnd => (.code, byte ' ')

/-- Auxiliary to `mask`: `acc` is the text masked so far, backwards. -/
def maskAux (mode : Mode) (acc : Bytes) : Bytes → Bytes
  | [] => acc.reverse
  | b :: s =>
    let (mode, masked) := mode.step b s.head?
    maskAux mode (masked :: acc) s

/-- A source text with its comments blanked out. -/
def mask (source : Bytes) : Bytes := maskAux .code [] source

end LintPool.Source
