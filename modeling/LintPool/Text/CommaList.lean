import LintPool.Text.Bytes

/-!
# Comma separated lists

A list on one line, with commas between its items. An item that starts with a double quote goes on
up to the closing one and may hold commas, line ends and doubled quotes.

## Main definitions

* `LintPool.CommaList.parse` : the items of a list.
-/

namespace LintPool.CommaList

/-- A place in a text, for messages. Lines and columns count from one. -/
structure Place where
  line : Nat
  column : Nat
  deriving DecidableEq

/-- Why a text is no list. `first` is the line that the list starts on. -/
inductive Error where
  | noItems
  /-- A quote stands inside of an item without quotes. -/
  | bareQuote (first : Nat) (place : Place)
  /-- A quote is missing, or something follows the closing one. -/
  | badQuote (first : Nat) (place : Place)
  deriving DecidableEq

/-- The place of an error in words. -/
def Error.whereText (first : Nat) (place : Place) : Bytes :=
  (if first = place.line then []
    else utf8 "record on line " ++ Bytes.natural first ++ utf8 "; ") ++
  utf8 "parse error on line " ++ Bytes.natural place.line ++ utf8 ", column " ++
    Bytes.natural place.column ++ utf8 ": "

/-- The message of an error. -/
def Error.message : Error → Bytes
  | .noItems => utf8 "EOF"
  | .bareQuote first place =>
    whereText first place ++ utf8 "bare \" in non-quoted field"
  | .badQuote first place =>
    whereText first place ++ utf8 "extraneous or missing \" in quoted-field"

/-- Where the reader is. -/
inductive Mode where
  /-- At the start of an item. -/
  | start
  /-- Inside of an item without quotes. -/
  | plain
  /-- Inside of an item with quotes. -/
  | inQuotes
  /-- Behind a quote inside of an item with quotes. -/
  | afterQuote

/-- The items of a list. `item` is the current one and `items` the finished ones, both backwards. -/
def items (first : Nat) (mode : Mode) (place : Place) (item : Bytes) (finished : List Bytes) :
    Bytes → Except Error (List Bytes)
  | [] =>
    match mode with
    | .inQuotes => .error (.badQuote first place)
    | _ => .ok (item.reverse :: finished).reverse
  | b :: s =>
    let next := { place with column := place.column + 1 }
    let quote := b = byte '"'
    match mode with
    | .inQuotes =>
      if quote then items first .afterQuote next item finished s
      else if b = byte '\n' then
        let place := if s.isEmpty then next else ⟨place.line + 1, 1⟩
        items first .inQuotes place (b :: item) finished s
      else items first .inQuotes next (b :: item) finished s
    | .afterQuote =>
      if quote then items first .inQuotes next (b :: item) finished s
      else if b = byte ',' then items first .start next [] (item.reverse :: finished) s
      else if b = byte '\n' then .ok (item.reverse :: finished).reverse
      else .error (.badQuote first { place with column := place.column - 1 })
    | .start =>
      if quote then items first .inQuotes next item finished s
      else if b = byte ',' then items first .start next [] (item.reverse :: finished) s
      else if b = byte '\n' then .ok (item.reverse :: finished).reverse
      else items first .plain next (b :: item) finished s
    | .plain =>
      if quote then .error (.bareQuote first place)
      else if b = byte ',' then items first .start next [] (item.reverse :: finished) s
      else if b = byte '\n' then .ok (item.reverse :: finished).reverse
      else items first .plain next (b :: item) finished s

/-- A text with plain line ends, and without a carriage return at its end. -/
def plainLines : Bytes → Bytes
  | [] => []
  | [b] => if b = byte '\r' then [] else [b]
  | b :: c :: s =>
    if b = byte '\r' ∧ c = byte '\n' then plainLines (c :: s) else b :: plainLines (c :: s)

/-- The items of a list. Empty lines before it do not count; an empty text is a list without items.
-/
def parse (s : Bytes) : Except Error (List Bytes) :=
  if s.isEmpty then .ok []
  else
    let text := plainLines s
    let blankLines := (text.takeWhile (· = byte '\n')).length
    match text.dropWhile (· = byte '\n') with
    | [] => .error .noItems
    | rest => items (blankLines + 1) .start ⟨blankLines + 1, 1⟩ [] [] rest

end LintPool.CommaList
