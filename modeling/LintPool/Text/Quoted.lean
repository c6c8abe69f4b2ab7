import LintPool.Text.Printable
import LintPool.Text.Utf8

/-!
# Quoted text

Names that come from outside are shown between double quotes, so that a reader sees where they begin
and end. Printable characters stand for themselves; a quote and a backslash get a backslash; seven
control characters have short escapes; any other character is written by its code, a damaged byte by
its value.

## Main definitions

* `LintPool.quoted` : the quoted form of a text.
-/

namespace LintPool

/-- The escape of a control character that has a short one. -/
def Quoted.short? (c : Char) : Option Char :=
  match c.toNat with
  | 7 => some 'a'
  | 8 => some 'b'
  | 12 => some 'f'
  | 10 => some 'n'
  | 13 => some 'r'
  | 9 => some 't'
  | 11 => some 'v'
  | _ => none

/-- One character as it stands between the quotes. -/
def Quoted.char (c : Char) : Bytes :=
  if c = '"' ∨ c = '\\' then byte '\\' :: Utf8.encode c
  else if isPrintable c then Utf8.encode c
  else
    match Quoted.short? c with
    | some letter => [byte '\\', byte letter]
    | none =>
      let n := c.toNat
      if n < 0x20 ∨ n = 0x7F then utf8 "\\x" ++ Bytes.hex 2 n
      else if n < 0x10000 then utf8 "\\u" ++ Bytes.hex 4 n
      else utf8 "\\U" ++ Bytes.hex 8 n

/-- A damaged byte as it stands between the quotes. -/
def Quoted.damaged (b : UInt8) : Bytes := utf8 "\\x" ++ Bytes.hex 2 b.toNat

/-- Auxiliary to `quoted`: `acc` is the text written so far, backwards. -/
def Quoted.aux (acc : Bytes) (s : Bytes) : Bytes :=
  match _h : Utf8.head? s with
  | some (c, rest) => Quoted.aux ((Quoted.char c).reverseAux acc) rest
  | none =>
    match s with
    | [] => acc.reverse
    | b :: rest => Quoted.aux ((Quoted.damaged b).reverseAux acc) rest
termination_by s.length
decreasing_by
  · exact Utf8.length_of_head? _h
  · simp

/-- A character between single quotes. -/
def Quoted.single (c : Char) : Bytes :=
  let inner :=
    if c = '"' then Utf8.encode c
    else if c = '\'' then utf8 "\\'"
    else Quoted.char c
  byte '\'' :: inner ++ [byte '\'']

/-- A text between double quotes, with everything that is not printable escaped. -/
def quoted (s : Bytes) : Bytes := byte '"' :: Quoted.aux [] s ++ [byte '"']

end LintPool
