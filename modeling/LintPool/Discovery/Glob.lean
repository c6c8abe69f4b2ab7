import LintPool.Path
import LintPool.Text.Utf8

/-!
# Patterns for paths

In a pattern, `*` stands for any bytes but slashes, `?` for one character but a slash, a class in
brackets for one character, and a backslash takes the meaning of what follows it. Everything else
stands for itself.

A star takes as little as it can, and what was once taken is not given back. A pattern that is not
well formed matches nothing.

## Main definitions

* `LintPool.Glob` : a pattern.
* `LintPool.Glob.parse?` : the pattern of a text.
* `LintPool.Glob.matches` : whether a pattern matches a whole name.
-/

namespace LintPool

/-- What stands for one character of a name. -/
inductive Glob.Item where
  | byte (b : UInt8)
  | any
  /-- A class: characters between the two ends of some range, or in none of the ranges. -/
  | oneOf (negated : Bool) (ranges : List (Char × Char))
  deriving DecidableEq

/-- Items that stand one after another, perhaps behind a star. -/
structure Glob.Segment where
  star : Bool
  items : List Glob.Item
  deriving DecidableEq

/-- A pattern: its parts from star to star. -/
abbrev Glob := List Glob.Segment

namespace Glob

/-! ## Reading patterns -/

/-- The character at the head of a text, of which a damaged byte is one. -/
def character? (s : Bytes) : Option (Char × Bytes) :=
  match Utf8.head? s with
  | some (c, rest) => some (c, rest)
  | none =>
    match s with
    | _ :: rest => some (Utf8.replacement, rest)
    | [] => none

/-- One end of a range, and what follows it. The class goes on behind it. -/
def rangeEnd? (s : Bytes) : Option (Char × Bytes) := do
  let s ← match s with
    | [] => none
    | b :: rest =>
      if b = byte '-' ∨ b = byte ']' then none
      else if b = byte '\\' then some rest
      else some s
  let (c, rest) ← Utf8.head? s
  if rest.isEmpty then none
  return (c, rest)

/-- The ranges of a class up to its closing bracket, and what follows it. `fuel` bounds their
number. -/
def ranges? : (fuel : Nat) → (acc : List (Char × Char)) → Bytes →
    Option (List (Char × Char) × Bytes)
  | 0, _, _ => none
  | fuel + 1, acc, s =>
    match s, acc with
    | b :: rest, _ :: _ =>
      if b = byte ']' then some (acc.reverse, rest) else range? fuel acc s
    | _, _ => range? fuel acc s
where
  /-- The next range, and then the others. -/
  range? (fuel : Nat) (acc : List (Char × Char)) (s : Bytes) :
      Option (List (Char × Char) × Bytes) := do
    let (low, s) ← rangeEnd? s
    match s with
    | b :: rest =>
      if b = byte '-' then
        let (high, s) ← rangeEnd? rest
        ranges? fuel ((low, high) :: acc) s
      else ranges? fuel ((low, low) :: acc) s
    | [] => none

/-- A class behind its opening bracket, and what follows it. -/
def oneOf? (s : Bytes) : Option (Item × Bytes) := do
  let (negated, s) := match s with
    | b :: rest => if b = byte '^' then (true, rest) else (false, s)
    | [] => (false, s)
  let (ranges, rest) ← ranges? (s.length + 1) [] s
  return (.oneOf negated ranges, rest)

/-- The items of a text without stars outside of classes. `fuel` bounds their number. -/
def items? : (fuel : Nat) → Bytes → Option (List Item)
  | _, [] => some []
  | 0, _ => none
  | fuel + 1, b :: rest =>
    if b = byte '[' then do
      let (item, rest) ← oneOf? rest
      let items ← items? fuel rest
      return item :: items
    else if b = byte '?' then do
      let items ← items? fuel rest
      return .any :: items
    else if b = byte '\\' then
      match rest with
      | [] => none
      | c :: rest => do
        let items ← items? fuel rest
        return .byte c :: items
    else do
      let items ← items? fuel rest
      return .byte b :: items

/-- The part of a pattern before the next star that is not in a class, and the pattern from there
on. -/
def untilStar (inClass : Bool) (acc : Bytes) : Bytes → Bytes × Bytes
  | [] => (acc.reverse, [])
  | [b] => if b = byte '*' ∧ !inClass then (acc.reverse, [b]) else ((b :: acc).reverse, [])
  | b :: c :: rest =>
    if b = byte '\\' then untilStar inClass (c :: b :: acc) rest
    else if b = byte '*' ∧ !inClass then (acc.reverse, b :: c :: rest)
    else
      untilStar (if b = byte '[' then true else if b = byte ']' then false else inClass) (b :: acc)
        (c :: rest)

/-- The parts of a pattern. `fuel` bounds their number. -/
def segments? : (fuel : Nat) → Bytes → Option Glob
  | _, [] => some []
  | 0, _ => none
  | fuel + 1, s => do
    let star := s.head? == some (byte '*')
    let (text, rest) := untilStar false [] (s.dropWhile (· = byte '*'))
    let items ← items? text.length text
    let others ← segments? fuel rest
    return { star, items } :: others

/-- The pattern of a text. None if it is not well formed. -/
def parse? (pattern : Bytes) : Option Glob := segments? pattern.length pattern

/-! ## Matching -/

/-- What follows the part of a name that an item stands for. -/
def Item.take? (item : Item) (name : Bytes) : Option Bytes :=
  match item with
  | .byte b =>
    match name with
    | a :: rest => if a = b then some rest else none
    | [] => none
  | .any =>
    match character? name with
    | some (c, rest) => if c = '/' then none else some rest
    | none => none
  | .oneOf negated ranges =>
    match character? name with
    | some (c, rest) =>
      let inside := ranges.any fun (low, high) => low ≤ c && c ≤ high
      if inside == negated then none else some rest
    | none => none

/-- What follows the part of a name that items stand for. -/
def takeAll? : (items : List Item) → (name : Bytes) → Option Bytes
  | [], name => some name
  | item :: items, name => (item.take? name).bind (takeAll? items)

/-- What follows the first place where items match, behind any bytes but slashes. At the end of a
pattern nothing may follow. -/
def seek? (last : Bool) (items : List Item) : (name : Bytes) → Option Bytes
  | [] => none
  | b :: name =>
    if b = byte '/' then none
    else
      match takeAll? items name with
      | some rest => if last && !rest.isEmpty then seek? last items name else some rest
      | none => seek? last items name

/-- What follows the part of a name that a segment stands for. -/
def Segment.take? (s : Segment) (last : Bool) (name : Bytes) : Option Bytes :=
  match takeAll? s.items name with
  | some rest =>
    if !last || rest.isEmpty then some rest
    else if s.star then seek? last s.items name else none
  | none => if s.star then seek? last s.items name else none

/-- Whether a pattern matches a whole name. -/
def «matches» : (pattern : Glob) → (name : Bytes) → Bool
  | [], name => name.isEmpty
  | s :: rest, name =>
    if s.star && s.items.isEmpty then !name.contains (byte '/')
    else
      match s.take? rest.isEmpty name with
      | some name => Glob.«matches» rest name
      | none => false

end Glob

end LintPool
