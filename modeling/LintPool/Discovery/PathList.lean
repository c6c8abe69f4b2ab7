import LintPool.Text.Blank
import LintPool.Tree

/-!
# Lists of paths

Paths to analyse can be listed in a file, one a line. Blank lines and lines that start with `#` do
not count.

## Main definitions

* `LintPool.PathList.parse` : the paths of a list.
* `LintPool.PathList.load` : the paths of a list in a file.
-/

namespace LintPool.PathList

/-- Lines have to be shorter than this. -/
def maxLine : Nat := 65536

/-- Why a list could not be read. -/
inductive Error where
  | unreadable (e : Tree.ReadError)
  | lineTooLong
  deriving DecidableEq

/-- The message of an error. A list is opened before it is read. -/
def Error.message : Error → Bytes
  | .unreadable (.closed path fault) =>
    utf8 "open paths file: " ++ (Tree.ReadError.closed path fault).message
  | .unreadable e => utf8 "read paths file: " ++ e.message
  | .lineTooLong => utf8 "read paths file: bufio.Scanner: token too long"

/-- The path on a line, if there is one. -/
def path? (line : Bytes) : Option Bytes :=
  let line := Blank.trim line
  if line.isEmpty || line.head? == some (byte '#') then none else some line

/-- The paths of a list. -/
def parse (content : Bytes) : Except Error (List Bytes) :=
  let lines := Bytes.lines content
  if lines.any (maxLine ≤ ·.length) then .error .lineTooLong else .ok (lines.filterMap path?)

/-- The paths of a list in a file. -/
def load (content : Except Tree.ReadError Bytes) : Except Error (List Bytes) :=
  match content with
  | .error e => .error (.unreadable e)
  | .ok content => parse content

end LintPool.PathList
