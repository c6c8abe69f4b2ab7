import LintPool.Source.Scan

/-!
# Strict comparisons of literals

Two literals of different types are never identical, so a strict comparison between them always
comes out the same.

## Main definitions

* `LintPool.Rule.LiteralType` : the type of a literal.
* `LintPool.Rule.Comparison` : a strict comparison between two literals.
* `LintPool.Rule.Comparison.find?` : one at a position of a text.
* `LintPool.Rule.Comparison.message?` : what is reported of it.
-/

namespace LintPool.Rule

/-! ## Literals -/

/-- The type of a literal. -/
inductive LiteralType where
  | bool
  | null
  | string
  | float
  | int
  deriving DecidableEq

/-- The name of a type. -/
def LiteralType.name : LiteralType → Bytes
  | .bool => utf8 "bool"
  | .null => utf8 "null"
  | .string => utf8 "string"
  | .float => utf8 "float"
  | .int => utf8 "int"

/-- The type of a literal, told from its spelling. -/
def LiteralType.ofText (literal : Bytes) : LiteralType :=
  let l := literal.map Bytes.lowerByte
  if l = utf8 "true" ∨ l = utf8 "false" then .bool
  else if l = utf8 "null" then .null
  else if l.head? = some (byte '\'') ∨ l.head? = some (byte '"') then .string
  else if l.contains (byte '.') then .float
  else .int

/-- The digits at the head of a text, if there are any, and what follows them. -/
def digits? (s : Bytes) : Option (Bytes × Bytes) :=
  if (s.head?.map Bytes.isDigit).getD false then
    some (s.takeWhile Bytes.isDigit, s.dropWhile Bytes.isDigit)
  else none

/-- The fraction at the head of a text, and what follows it; nothing if there is no digit behind the
point. -/
def fraction (s : Bytes) : Bytes × Bytes :=
  match Source.byte? '.' s with
  | none => ([], s)
  | some (point, rest) =>
    match digits? rest with
    | none => ([], s)
    | some (digits, rest) => (point ++ digits, rest)

/-- A number at the head of a text, and what follows it. -/
def number? (s : Bytes) : Option (Bytes × Bytes) := do
  let (sign, s) := (Source.byte? '-' s).getD ([], s)
  let (digits, s) ← digits? s
  let (fraction, s) := fraction s
  return (sign ++ digits ++ fraction, s)

/-- A text in quotes at the head of a text, and what follows it. It lies on one line. -/
def string? (quote : Char) (s : Bytes) : Option (Bytes × Bytes) := do
  let (opening, s) ← Source.byte? quote s
  let inside (b : UInt8) : Bool := b != byte quote && b != byte '\n'
  let body := s.takeWhile inside
  let (closing, s) ← Source.byte? quote (s.dropWhile inside)
  return (opening ++ body ++ closing, s)

/-- A literal at the head of a text, and what follows it. -/
def literal? (s : Bytes) : Option (Bytes × Bytes) :=
  number? s <|> string? '\'' s <|> string? '"' s <|> Source.anyWord? ["true", "false", "null"] s

/-! ## Comparisons -/

/-- A strict comparison between two literals, which are given as they are spelled. -/
structure Comparison where
  left : Bytes
  /-- Whether it asks for a difference. -/
  negated : Bool
  right : Bytes
  deriving DecidableEq

namespace Comparison

/-- A comparison operator at the head of a text, whether it asks for a difference, and what follows
it. -/
def operator? (s : Bytes) : Option (Bool × Bytes) :=
  ((Bytes.dropPrefix? (utf8 "===") s).map fun s => (false, s)) <|>
    (Bytes.dropPrefix? (utf8 "!==") s).map fun s => (true, s)

/-- Whether a literal may start behind a byte: not inside of a name, a number or quotes. A line
break is always fine. -/
def mayFollow (before : Option UInt8) : Bool :=
  match before with
  | none => true
  | some b =>
    !(Source.isWordByte b || b == byte '$' || b == byte '.' || b == byte '\'' || b == byte '"')

/-- A comparison at the head of a text, and its length. -/
def find? (before : Option UInt8) (s : Bytes) : Option (Comparison × Nat) := do
  if !mayFollow before then none
  let (left, s) ← literal? s
  let (gap₁, s) := Source.blanks s
  let (negated, s) ← operator? s
  let (gap₂, s) := Source.blanks s
  let (right, _) ← literal? s
  return ({ left, negated, right }, left.length + gap₁.length + 3 + gap₂.length + right.length)

/-- The spelling of the operator. -/
def operator (c : Comparison) : Bytes := if c.negated then utf8 "!==" else utf8 "==="

/-- What the comparison of two different types comes to. -/
def outcome (c : Comparison) : Bytes := if c.negated then utf8 "true" else utf8 "false"

/-- What is reported of a comparison. -/
def message? (c : Comparison) : Option Bytes :=
  let left := LiteralType.ofText c.left
  let right := LiteralType.ofText c.right
  if left = right then none
  else
    some (utf8 "Strict comparison using " ++ c.operator ++ utf8 " between " ++ left.name ++
      utf8 " and " ++ right.name ++ utf8 " will always evaluate to " ++ c.outcome ++ utf8 ".")

end Comparison

end LintPool.Rule
