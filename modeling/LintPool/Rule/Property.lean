import LintPool.Source.Scan

/-!
# Properties without a type

The type of a property can often be inferred from the constructor. A source text offers that if it
declares a constructor and some property without a type.

## Main definitions

* `LintPool.Rule.declaresConstructor`, `LintPool.Rule.declaresProperty` : the two declarations.
* `LintPool.Rule.infersProperties` : whether a source text has both.
-/

namespace LintPool.Rule

/-- Whether the head of a constructor stands at the head of a text. -/
def isConstructor (s : Bytes) : Bool :=
  Option.isSome <| do
    let (_, s) ← Source.word? (utf8 "function") s
    let (_, s) ← Source.blanks? s
    let (_, s) ← Source.word? (utf8 "__construct") s
    Source.byte? '(' (Source.blanks s).2

/-- Whether a source text declares a constructor. -/
def declaresConstructor : Bytes → Bool
  | [] => false
  | b :: s => isConstructor (b :: s) || declaresConstructor s

/-- Whether a variable stands at the head of a text. -/
def isVariable (s : Bytes) : Bool :=
  match s with
  | a :: b :: _ => a == byte '$' && Source.isWordByte b
  | _ => false

/-- What follows the word `static` and the white space before it, if they are at the head of a text.
-/
def dropStatic (s : Bytes) : Bytes :=
  match Source.word? (utf8 "static") (Source.blanks s).2 with
  | some (_, rest) => rest
  | none => s

/-- Whether a property without a type is declared at the head of a text. -/
def isProperty (s : Bytes) : Bool :=
  match Source.anyWord? ["public", "protected", "private"] s with
  | none => false
  | some (_, s) =>
    match Source.blanks? s with
    | none => false
    | some (_, rest) =>
      isVariable rest ||
        match Source.blanks? (dropStatic s) with
        | none => false
        | some (_, rest) => isVariable rest

/-- Whether a source text declares a property without a type, with nothing before it on its line.
`fresh` tells whether the line is blank so far. -/
def declaresPropertyFrom (fresh : Bool) : Bytes → Bool
  | [] => false
  | b :: s =>
    (fresh && isProperty (b :: s)) ||
      declaresPropertyFrom (b == byte '\n' || (fresh && Source.isSpace b)) s

/-- Whether a source text declares a property without a type. -/
def declaresProperty (s : Bytes) : Bool := declaresPropertyFrom true s

/-- Whether property types could be inferred from a constructor. -/
def infersProperties (s : Bytes) : Bool := declaresConstructor s && declaresProperty s

end LintPool.Rule
