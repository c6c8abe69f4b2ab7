import LintPool.Text.Utf8

/-!
# Tokens of YAML

Settings are written in YAML. Its tokens are the indicators of flow and block collections, and
scalars. The beginning and end of a block collection is told by indentation alone; a token stands
for it all the same. That a scalar is a key is known only at the colon behind it, so the tokens of a
key are put in where the key began.

Anchors, tags, directives and block scalars are not part of the dialect.

## Main definitions

* `LintPool.Yaml.Token` : a token.
* `LintPool.Yaml.Tokens` : the tokens of a text, up to its end or to a fault.
* `LintPool.Yaml.tokens` : the tokens of a text.
-/

namespace LintPool.Yaml

/-- A token. -/
inductive Token where
  | streamEnd
  | documentStart
  | documentEnd
  | sequenceStart
  | mappingStart
  | blockEnd
  | flowSequenceStart
  | flowSequenceEnd
  | flowMappingStart
  | flowMappingEnd
  /-- The dash of a block sequence. -/
  | entry
  /-- The comma of a flow collection. -/
  | flowEntry
  | key
  | value
  /-- A scalar, plain or in quotes. -/
  | scalar (plain : Bool) (text : List Char)
  deriving DecidableEq

/-- The tokens of a text. -/
structure Tokens where
  list : List Token
  /-- Whether the text could be read to its end. -/
  complete : Bool

/-! ## Characters -/

/-- Whether a character ends a line. -/
def isBreak (c : Char) : Bool :=
  c = '\n' || c = '\r' || c.toNat = 0x85 || c.toNat = 0x2028 || c.toNat = 0x2029

/-- Whether a character is a space or a tab. -/
def isBlank (c : Char) : Bool := c = ' ' || c = '\t'

/-- Whether a text starts with a blank or a line end, or is at its end. -/
def atBlank (s : List Char) : Bool :=
  match s with
  | [] => true
  | c :: _ => isBlank c || isBreak c

/-- Whether a character may stand in a text at all. -/
def isAllowed (c : Char) : Bool :=
  let n := c.toNat
  n = 0x09 || n = 0x0A || n = 0x0D || (0x20 ≤ n && n ≤ 0x7E) || n = 0x85 ||
    (0xA0 ≤ n && n ≤ 0xFFFD) || 0x10000 ≤ n

/-- The line end that stands for a character: all but the two separators become a line feed. -/
def lineEnd (c : Char) : Char := if c.toNat = 0x2028 ∨ c.toNat = 0x2029 then c else '\n'

/-- Whether a text starts with one of the marks between documents. -/
def atDocumentMark (s : List Char) : Bool :=
  (s.take 3 = ['-', '-', '-'] || s.take 3 = ['.', '.', '.']) && atBlank (s.drop 3)

/-! ## Positions -/

/-- A position in a text and what follows it. -/
structure Cursor where
  rest : List Char
  index : Nat := 0
  line : Nat := 0
  column : Nat := 0

/-- The position behind a character. A carriage return before a line feed belongs to that line end.
-/
def Cursor.advance (c : Cursor) : Cursor :=
  match c.rest with
  | [] => c
  | a :: rest =>
    if isBreak a && !(a = '\r' && rest.head? = some '\n') then
      { rest, index := c.index + 1, line := c.line + 1, column := 0 }
    else if a = '\r' then { c with rest, index := c.index + 1 }
    else { c with rest, index := c.index + 1, column := c.column + 1 }

/-- The position behind a number of characters. -/
def Cursor.skip (c : Cursor) : Nat → Cursor
  | 0 => c
  | n + 1 => c.advance.skip n

/-! ## Scalars -/

/-- The text of a scalar that folds line ends, while it is read. Texts are kept backwards. -/
structure Folded where
  text : List Char := []
  /-- Blanks that belong to the text if more of the line follows. -/
  blanks : List Char := []
  /-- Whether a line ended since the last word. -/
  atLineStart : Bool := false
  /-- The first line end since the last word, unless it was escaped. -/
  lineBreak : Option Char := none
  /-- The line ends after the first. -/
  moreBreaks : List Char := []

namespace Folded

/-- Settles the blanks and line ends before a word: a single line end becomes a space, of more than
one the first is dropped. -/
def settle (f : Folded) : Folded :=
  if f.atLineStart then
    match f.lineBreak with
    | some '\n' => { text := (if f.moreBreaks.isEmpty then [' '] else f.moreBreaks) ++ f.text }
    | some first => { text := f.moreBreaks ++ first :: f.text }
    | none => { text := f.moreBreaks ++ f.text }
  else { text := f.blanks ++ f.text }

/-- Adds characters of a word. -/
def push (f : Folded) (c : Char) : Folded := { text := c :: f.settle.text }

/-- Adds a blank. -/
def pushBlank (f : Folded) (c : Char) : Folded :=
  if f.atLineStart then f else { f with blanks := c :: f.blanks }

/-- Adds a line end. -/
def pushBreak (f : Folded) (c : Char) : Folded :=
  if f.atLineStart then { f with moreBreaks := lineEnd c :: f.moreBreaks }
  else { f with blanks := [], atLineStart := true, lineBreak := some (lineEnd c) }

/-- Adds a line end that a backslash takes back. -/
def pushEscapedBreak (f : Folded) : Folded := { f.settle with atLineStart := true }

end Folded

/-- Whether a plain scalar ends at a position. -/
def endsPlain (flow : Bool) (s : List Char) : Bool :=
  match s with
  | [] => true
  | c :: rest =>
    (c = ':' && atBlank rest) || (flow && [',', '?', '[', ']', '{', '}'].contains c)

/-- Reads a plain scalar on. `fresh` tells whether a word may start here. Continued lines are
indented by at least `indent`. None if a tab stands in the indentation. -/
def plainFrom (flow : Bool) (indent : Int) : (fuel : Nat) → (fresh : Bool) → Folded → Cursor →
    Option (Folded × Cursor)
  | 0, _, f, c => some (f, c)
  | fuel + 1, fresh, f, c =>
    match c.rest with
    | [] => some (f, c)
    | a :: rest =>
      if isBlank a then
        if f.atLineStart && decide ((c.column : Int) < indent) && a = '\t' then none
        else plainFrom flow indent fuel true (f.pushBlank a) c.advance
      else if isBreak a then
        let f := if a = '\r' && rest.head? = some '\n' then f else f.pushBreak a
        plainFrom flow indent fuel true f c.advance
      else if fresh && f.atLineStart && !flow && decide ((c.column : Int) < indent) then some (f, c)
      else if fresh && ((c.column = 0 && atDocumentMark c.rest) || a = '#') then some (f, c)
      else if endsPlain flow c.rest then some (f, c)
      else plainFrom flow indent fuel false (f.push a) c.advance

/-- What an escape letter stands for. -/
def escape? (c : Char) : Option Char :=
  match c with
  | '0' => some (Char.ofNat 0)
  | 'a' => some (Char.ofNat 7)
  | 'b' => some (Char.ofNat 8)
  | 't' => some '\t'
  | '\t' => some '\t'
  | 'n' => some '\n'
  | 'v' => some (Char.ofNat 11)
  | 'f' => some (Char.ofNat 12)
  | 'r' => some '\r'
  | 'e' => some (Char.ofNat 27)
  | ' ' => some ' '
  | '"' => some '"'
  | '\'' => some '\''
  | '/' => some '/'
  | '\\' => some '\\'
  | 'N' => some (Char.ofNat 0x85)
  | '_' => some (Char.ofNat 0xA0)
  | 'L' => some (Char.ofNat 0x2028)
  | 'P' => some (Char.ofNat 0x2029)
  | _ => none

/-- The number of hexadecimal digits behind an escape letter. -/
def escapeWidth? (c : Char) : Option Nat :=
  match c with
  | 'x' => some 2
  | 'u' => some 4
  | 'U' => some 8
  | _ => none

/-- The value of hexadecimal digits. -/
def hexNumber? (n : Nat) : List Char → Option Nat
  | [] => some n
  | c :: cs =>
    if c.toNat < 0x80 then
      match Bytes.hexValue? (byte c) with
      | some d => hexNumber? (n * 16 + d) cs
      | none => none
    else none

/-- The character of an escape by number. -/
def numbered? (width : Nat) (s : List Char) : Option Char :=
  let digits := s.take width
  if digits.length = width then do
    let n ← hexNumber? 0 digits
    if (0xD800 ≤ n ∧ n ≤ 0xDFFF) ∨ 0x10FFFF < n then none else some (Char.ofNat n)
  else none

/-- The character of an escape behind its backslash, and the length of the escape. -/
def escaped? (s : List Char) : Option (Char × Nat) :=
  match s with
  | [] => none
  | a :: rest =>
    match escape? a with
    | some c => some (c, 1)
    | none => do
      let width ← escapeWidth? a
      let c ← numbered? width rest
      return (c, width + 1)

/-- Reads a scalar in quotes on, up to its closing quote. None if it is not closed or holds a bad
escape. -/
def quotedFrom (double : Bool) : (fuel : Nat) → Folded → Cursor → Option (Folded × Cursor)
  | 0, _, _ => none
  | fuel + 1, f, c =>
    match c.rest with
    | [] => none
    | a :: rest =>
      if c.column = 0 && atDocumentMark c.rest then none
      else if isBlank a then quotedFrom double fuel (f.pushBlank a) c.advance
      else if isBreak a then
        let f := if a = '\r' && rest.head? = some '\n' then f else f.pushBreak a
        quotedFrom double fuel f c.advance
      else if a = '\'' && !double then
        if rest.head? = some '\'' then quotedFrom double fuel (f.push a) (c.skip 2)
        else some (f.settle, c.advance)
      else if a = '"' && double then some (f.settle, c.advance)
      else if a = '\\' && double then
        if (rest.head?.map isBreak).getD false then
          let crlf := rest.take 2 = ['\r', '\n']
          quotedFrom double fuel f.pushEscapedBreak (c.skip (if crlf then 3 else 2))
        else
          match escaped? rest with
          | none => none
          | some (char, length) => quotedFrom double fuel (f.push char) (c.skip (length + 1))
      else quotedFrom double fuel (f.push a) c.advance

/-! ## Scanning -/

/-- A token that may turn out to be a key. -/
structure PendingKey where
  /-- How many tokens come before it. -/
  token : Nat
  index : Nat
  line : Nat
  column : Nat
  /-- Whether it has to be a key, since it stands where the next key of a mapping is due. -/
  required : Bool

/-- A text that is being scanned. -/
structure Scanner where
  cursor : Cursor
  tokens : List Token := []
  /-- The column of the current block collection. -/
  indent : Int := -1
  /-- The columns of the collections around it. -/
  indents : List Int := []
  /-- The possible key of each open flow collection, the innermost first, and of the block outside.
  -/
  keys : List (Option PendingKey) := [none]
  /-- Whether a key may start here. -/
  keyAllowed : Bool := true

namespace Scanner

/-- Whether the position is inside of a flow collection. -/
def inFlow (s : Scanner) : Bool := 1 < s.keys.length

/-- Adds a token. -/
def emit (s : Scanner) (t : Token) : Scanner := { s with tokens := s.tokens ++ [t] }

/-- Moves on by a number of characters. -/
def skip (s : Scanner) (n : Nat) : Scanner := { s with cursor := s.cursor.skip n }

/-- Opens a block collection at a column if it is further in than the current one. Its token goes
where `place` tokens come before it. -/
def openBlock (s : Scanner) (column place : Nat) (t : Token) : Scanner :=
  if !s.inFlow && decide (s.indent < (column : Int)) then
    { s with indents := s.indent :: s.indents, indent := column
             tokens := s.tokens.insertIdx place t }
  else s

/-- Closes the block collections that are further in than a column, of which `indents` are the
columns around the current one. -/
def closeBlocksTo (column indent : Int) (indents : List Int) (tokens : List Token) :
    Int × List Int × List Token :=
  if column < indent then
    match indents with
    | [] => (-1, [], tokens ++ [.blockEnd])
    | outer :: indents => closeBlocksTo column outer indents (tokens ++ [.blockEnd])
  else (indent, indents, tokens)

/-- Closes the block collections that are further in than a column. -/
def closeBlocks (s : Scanner) (column : Int) : Scanner :=
  if s.inFlow then s
  else
    let (indent, indents, tokens) := closeBlocksTo column s.indent s.indents s.tokens
    { s with indent, indents, tokens }

/-- Gives up the possible key of the current level. None if it had to be a key. -/
def dropKey? (s : Scanner) : Option Scanner :=
  match s.keys with
  | some key :: keys => if key.required then none else some { s with keys := none :: keys }
  | _ => some s

/-- Notes that the next token may be a key. -/
def noteKey? (s : Scanner) : Option Scanner :=
  if s.keyAllowed then do
    let s ← s.dropKey?
    let c := s.cursor
    let key : PendingKey :=
      { token := s.tokens.length, index := c.index, line := c.line, column := c.column
        required := !s.inFlow && s.indent = (c.column : Int) }
    return { s with keys := some key :: s.keys.tail }
  else some s

/-- The possible key of the current level, if it is still one: it lies on the same line and not too
far back. None if it had to be a key and is not. -/
def currentKey? (s : Scanner) : Option (Option PendingKey) :=
  match s.keys with
  | some key :: _ =>
    if key.line < s.cursor.line ∨ key.index + 1024 < s.cursor.index then
      (if key.required then none else some none)
    else some (some key)
  | _ => some none

/-- Skips blanks, comments and line ends. A tab does not count as a blank where a key of a block may
start. -/
def skipGap : (fuel : Nat) → Scanner → Scanner
  | 0, s => s
  | fuel + 1, s =>
    match s.cursor.rest with
    | [] => s
    | c :: _ =>
      if c = ' ' || (c = '\t' && (s.inFlow || !s.keyAllowed)) then skipGap fuel (s.skip 1)
      else if c.toNat = 0xFEFF && s.cursor.column = 0 then skipGap fuel (s.skip 1)
      else if c = '#' then
        skipGap fuel (s.skip (s.cursor.rest.takeWhile (!isBreak ·)).length)
      else if isBreak c then
        let s := s.skip 1
        skipGap fuel (if s.inFlow then s else { s with keyAllowed := true })
      else s

/-- The end of a text. -/
def finish? (s : Scanner) : Option Scanner := do
  let s ← (s.closeBlocks (-1)).dropKey?
  return { s with keyAllowed := false }.emit .streamEnd

/-- A mark between documents. -/
def documentMark? (s : Scanner) (t : Token) : Option Scanner := do
  let s ← (s.closeBlocks (-1)).dropKey?
  return ({ s with keyAllowed := false }.emit t).skip 3

/-- The beginning of a flow collection. -/
def flowStart? (s : Scanner) (t : Token) : Option Scanner := do
  let s ← s.noteKey?
  return ({ s with keys := none :: s.keys, keyAllowed := true }.emit t).skip 1

/-- The end of a flow collection. -/
def flowEnd? (s : Scanner) (t : Token) : Option Scanner := do
  let s ← s.dropKey?
  let keys := if s.inFlow then s.keys.tail else s.keys
  return ({ s with keys, keyAllowed := false }.emit t).skip 1

/-- A comma. -/
def flowEntry? (s : Scanner) : Option Scanner := do
  let s ← s.dropKey?
  return ({ s with keyAllowed := true }.emit .flowEntry).skip 1

/-- The dash of a block sequence. -/
def entry? (s : Scanner) : Option Scanner := do
  if !s.inFlow && !s.keyAllowed then none
  let s ← (s.openBlock s.cursor.column s.tokens.length .sequenceStart).dropKey?
  return ({ s with keyAllowed := true }.emit .entry).skip 1

/-- The question mark before a key. -/
def key? (s : Scanner) : Option Scanner := do
  if !s.inFlow && !s.keyAllowed then none
  let s ← (s.openBlock s.cursor.column s.tokens.length .mappingStart).dropKey?
  return ({ s with keyAllowed := !s.inFlow }.emit .key).skip 1

/-- The colon before a value. -/
def value? (s : Scanner) : Option Scanner := do
  match ← s.currentKey? with
  | some key =>
    let s := { s with tokens := s.tokens.insertIdx key.token .key, keys := none :: s.keys.tail }
    let s := s.openBlock key.column key.token .mappingStart
    return ({ s with keyAllowed := false }.emit .value).skip 1
  | none =>
    if !s.inFlow && !s.keyAllowed then none
    let s := { s with keys := none :: s.keys.tail }
    let s := s.openBlock s.cursor.column s.tokens.length .mappingStart
    return ({ s with keyAllowed := !s.inFlow }.emit .value).skip 1

/-- A scalar in quotes. -/
def quoted? (s : Scanner) (double : Bool) : Option Scanner := do
  let s ← s.noteKey?
  let c := s.cursor.advance
  let (f, c) ← quotedFrom double (c.rest.length + 1) {} c
  return { s with cursor := c, keyAllowed := false }.emit (.scalar false f.text.reverse)

/-- A plain scalar. -/
def plain? (s : Scanner) : Option Scanner := do
  let s ← s.noteKey?
  let c := s.cursor
  let (f, c) ← plainFrom s.inFlow (s.indent + 1) (c.rest.length + 1) true {} c
  return { s with cursor := c, keyAllowed := f.atLineStart }.emit (.scalar true f.text.reverse)

/-- The characters that no plain scalar starts with. -/
def indicators : List Char :=
  ['-', '?', ':', ',', '[', ']', '{', '}', '#', '&', '*', '!', '|', '>', '\'', '"', '%', '@',
    Char.ofNat 0x60]

/-- Whether a plain scalar starts at a position. -/
def startsPlain (flow : Bool) (c : Char) (rest : List Char) : Bool :=
  (!isBlank c && !isBreak c && !indicators.contains c) ||
    (c = '-' && !(rest.head?.map isBlank).getD false) ||
    (!flow && (c = '?' || c = ':') && !atBlank rest)

/-- Scans the next token, behind blanks and comments. -/
def next? (s : Scanner) : Option Scanner :=
  let s := s.closeBlocks s.cursor.column
  match s.cursor.rest with
  | [] => s.finish?
  | c :: rest =>
    if s.cursor.column = 0 && c = '%' then none
    else if s.cursor.column = 0 && atDocumentMark s.cursor.rest then
      s.documentMark? (if c = '-' then .documentStart else .documentEnd)
    else if c = '[' then s.flowStart? .flowSequenceStart
    else if c = '{' then s.flowStart? .flowMappingStart
    else if c = ']' then s.flowEnd? .flowSequenceEnd
    else if c = '}' then s.flowEnd? .flowMappingEnd
    else if c = ',' then s.flowEntry?
    else if c = '-' && atBlank rest then s.entry?
    else if c = '?' && (s.inFlow || atBlank rest) then s.key?
    else if c = ':' && (s.inFlow || atBlank rest) then s.value?
    else if c = '\'' then s.quoted? false
    else if c = '"' then s.quoted? true
    else if startsPlain s.inFlow c rest then s.plain?
    else none

/-- Whether the end of the text has been scanned. -/
def done (s : Scanner) : Bool := s.tokens.getLast? = some .streamEnd

/-- Scans a text to its end. -/
def run : (fuel : Nat) → Scanner → Tokens
  | 0, s => { list := s.tokens, complete := s.done }
  | fuel + 1, s =>
    if s.done then { list := s.tokens, complete := true }
    else
      match (s.skipGap (s.cursor.rest.length + 1)).next? with
      | none => { list := s.tokens, complete := false }
      | some s => run fuel s

end Scanner

/-- The tokens of a text. A byte order mark in front does not count. -/
def tokens (s : List Char) : Tokens :=
  let s := if s.head? = some (Char.ofNat 0xFEFF) then s.tail else s
  if s.all isAllowed then
    let start : Scanner := { cursor := { rest := s } }
    start.run (s.length + 2)
  else { list := [], complete := false }

end LintPool.Yaml
