import LintPool.Text.Bytes

/-!
# Paths

Paths are byte strings of parts between slashes. They are handled as texts: nothing here looks at a
file.

## Main definitions

* `LintPool.Path.clean` : the shortest path that leads to the same place.
* `LintPool.Path.join` : one path below another.
* `LintPool.Path.dir`, `LintPool.Path.base`, `LintPool.Path.extension` : pieces of a path.
-/

namespace LintPool.Path

/-- The byte between the parts of a path. -/
def slash : UInt8 := byte '/'

/-- The path of the place itself. -/
def here : Bytes := utf8 "."

/-- The part that leads one level up. -/
def up : Bytes := utf8 ".."

/-- Whether a path starts at the root. -/
def isAbsolute (path : Bytes) : Bool := path.head? == some slash

/-- The parts of a path. -/
def parts (path : Bytes) : List Bytes := Bytes.splitOn slash path

/-- Enters a part. `kept` holds the parts so far, last first; above the root there is nothing. -/
def enter (rooted : Bool) (kept : List Bytes) (part : Bytes) : List Bytes :=
  if part.isEmpty || part == here then kept
  else if part == up then
    match kept with
    | last :: rest => if last == up then part :: kept else rest
    | [] => if rooted then [] else [part]
  else part :: kept

/-- The shortest path that leads to the same place, as far as the text tells. -/
def clean (path : Bytes) : Bytes :=
  let rooted := isAbsolute path
  let kept := ((parts path).foldl (enter rooted) []).reverse
  let relative := Bytes.join [slash] kept
  if rooted then slash :: relative else if kept.isEmpty then here else relative

/-- The place `path` seen from `base`. Empty paths do not count. -/
def join (base path : Bytes) : Bytes :=
  if base.isEmpty && path.isEmpty then []
  else if base.isEmpty then clean path
  else if path.isEmpty then clean base
  else clean (base ++ slash :: path)

/-- A path without the slashes at its end. -/
def dropSlashes (path : Bytes) : Bytes := (path.reverse.dropWhile (· = slash)).reverse

/-- What stands behind the last slash. -/
def afterSlash (path : Bytes) : Bytes := (path.reverse.takeWhile (· ≠ slash)).reverse

/-- The directory of a path. -/
def dir (path : Bytes) : Bytes := clean (path.take (path.length - (afterSlash path).length))

/-- The last part of a path. -/
def base (path : Bytes) : Bytes :=
  if path.isEmpty then here
  else
    let trimmed := dropSlashes path
    if trimmed.isEmpty then [slash] else afterSlash trimmed

/-- What stands behind the last point of the last part; none if there is no point. -/
def extension? (path : Bytes) : Option Bytes :=
  let last := afterSlash path
  let tail := (last.reverse.takeWhile (· ≠ byte '.')).reverse
  if tail.length < last.length then some tail else none

end LintPool.Path
