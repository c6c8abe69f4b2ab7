import LintPool.Source.Scan

/-!
# Constant conditions

A condition of `if`, `elseif` or `while` that is a bare boolean literal always comes out the same.
The endless loop `while (true)` is common and not reported.

## Main definitions

* `LintPool.Rule.Condition` : a keyword with a boolean literal as its condition.
* `LintPool.Rule.Condition.find?` : one at a position of a text.
* `LintPool.Rule.Condition.message?` : what is reported of it.
-/

namespace LintPool.Rule

/-- A keyword with a boolean literal as its condition, both as they are spelled. -/
structure Condition where
  keyword : Bytes
  value : Bytes
  deriving DecidableEq

namespace Condition

/-- A condition at the head of a text, and its length. A keyword does not start inside of a word. -/
def find? (before : Option UInt8) (s : Bytes) : Option (Condition × Nat) := do
  if (before.map Source.isWordByte).getD false then none
  let (keyword, s) ← Source.anyWord? ["if", "elseif", "while"] s
  let (gap₁, s) := Source.blanks s
  let (opening, s) ← Source.byte? '(' s
  let (gap₂, s) := Source.blanks s
  let (value, s) ← Source.anyWord? ["true", "false"] s
  let (gap₃, s) := Source.blanks s
  let (closing, _) ← Source.byte? ')' s
  return ({ keyword, value },
    keyword.length + gap₁.length + opening.length + gap₂.length + value.length + gap₃.length +
      closing.length)

/-- A word in lower case. -/
def lower (s : Bytes) : Bytes := s.map Bytes.lowerByte

/-- What a report calls the condition of a keyword. Only the common spelling of a keyword has a
name. -/
def subject (keyword : Bytes) : Bytes :=
  if keyword = utf8 "if" then utf8 "If condition"
  else if keyword = utf8 "elseif" then utf8 "Elseif condition"
  else if keyword = utf8 "while" then utf8 "While loop condition"
  else []

/-- What is reported of a condition. -/
def message? (c : Condition) : Option Bytes :=
  let keyword := lower c.keyword
  let value := lower c.value
  if keyword = utf8 "while" ∧ value = utf8 "true" then none
  else some (subject keyword ++ utf8 " is always " ++ value ++ utf8 ".")

end Condition

end LintPool.Rule
