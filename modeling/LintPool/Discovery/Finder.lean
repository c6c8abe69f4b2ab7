import LintPool.Discovery.Glob
import LintPool.Text.CaseFold
import LintPool.Tree

/-!
# Finding source files

The files to analyse are those with the right extension below some roots, without what is excluded.
A root that is a file counts whatever its extension. If one of the directories on the way cannot be
opened, nothing is found.

## Main definitions

* `LintPool.Finder` : what to look for.
* `LintPool.Finder.excludes`, `LintPool.Finder.matches` : the tests for a path.
* `LintPool.Finder.find` : the files below some roots, in order and without repetition.
-/

namespace LintPool

/-- What to look for. -/
structure Finder where
  /-- The extensions of source files, of any case. -/
  extensions : List Bytes
  /-- Paths and patterns of what is left out. -/
  excluded : List Bytes

namespace Finder

/-- A text without a point in front. -/
def dropPoint (s : Bytes) : Bytes :=
  match s with
  | b :: rest => if b = byte '.' then rest else s
  | [] => []

/-- Whether a path has one of the extensions. -/
def hasExtension (f : Finder) (path : Bytes) : Bool :=
  let extension := (Path.extension? path).getD []
  f.extensions.any fun wanted => CaseFold.eqFold extension (dropPoint wanted)

/-- Whether a path matches a pattern. -/
def globMatches (pattern path : Bytes) : Bool :=
  match Glob.parse? pattern with
  | some glob => Glob.«matches» glob path
  | none => false

/-- Whether a path is left out because of one exclusion: it is that path or lies below it, or the
exclusion is a pattern for the path or for its last part. -/
def excludedBy (path exclusion : Bytes) : Bool :=
  let exclusion := Path.clean exclusion
  path == exclusion || (exclusion ++ [Path.slash]).isPrefixOf path || globMatches exclusion path ||
    globMatches exclusion (Path.base path)

/-- Whether a path is left out. -/
def excludes (f : Finder) (path : Bytes) : Bool := f.excluded.any (excludedBy path)

/-- Why files could not be found. -/
inductive Error where
  | noRoots
  | badRoot (root : Bytes) (fault : Tree.Fault)
  /-- A directory below a root could not be opened. -/
  | badWalk (root directory : Bytes) (fault : Tree.Fault)
  deriving DecidableEq

/-- The message of an error. -/
def Error.message : Error → Bytes
  | .noRoots => utf8 "no paths to analyse"
  | .badRoot root fault =>
    utf8 "path " ++ root ++ utf8 ": stat " ++ root ++ utf8 ": " ++ fault.message
  | .badWalk root directory fault =>
    utf8 "walk " ++ root ++ utf8 ": open " ++ directory ++ utf8 ": " ++ fault.message

mutual

/-- The files below a path that leads to something. Links are not followed, and what is excluded is
passed over with all below it. -/
def filesBelow (f : Finder) (path : Bytes) : Tree.Node → List Bytes
  | .dir entries _ _ => if f.excludes path then [] else filesIn f path entries
  | .file _ _ => if !f.excludes path && f.hasExtension path then [path] else []
  | .link _ => if !f.excludes path && f.hasExtension path then [path] else []

/-- The files in or below the entries of a directory. -/
def filesIn (f : Finder) (path : Bytes) : List (Bytes × Tree.Node) → List Bytes
  | [] => []
  | (name, entry) :: rest => filesBelow f (Path.join path name) entry ++ filesIn f path rest

end

/-- Why a directory cannot be opened: its path is too long, a path cannot lead to it, or its entries
cannot be listed. -/
def openFault? (path : Bytes) (reachable readable : Bool) : Option Tree.Fault :=
  if Tree.maxPath ≤ path.length then some .nameTooLong
  else if reachable && readable then none
  else some .denied

mutual

/-- The first directory on the way from a path on that cannot be opened, and why. A path can lead to
what is at the start if it is `reachable`. -/
def unopened? (f : Finder) (path : Bytes) (reachable : Bool) :
    Tree.Node → Option (Bytes × Tree.Fault)
  | .dir entries readable searchable =>
    if f.excludes path then none
    else
      match openFault? path reachable readable with
      | some fault => some (path, fault)
      | none => (unopenedIn? f path searchable entries).map (·.2)
  | .file _ _ => none
  | .link _ => none

/-- The first such directory in or below the entries of a directory, with the name of its entry. The
entries come in the order of their names. -/
def unopenedIn? (f : Finder) (path : Bytes) (reachable : Bool) :
    List (Bytes × Tree.Node) → Option (Bytes × Bytes × Tree.Fault)
  | [] => none
  | (name, entry) :: rest =>
    match unopened? f (Path.join path name) reachable entry, unopenedIn? f path reachable rest with
    | none, other => other
    | some found, none => some (name, found)
    | some found, some other =>
      if Bytes.le name other.1 then some (name, found) else some other

end

/-- The files that one root stands for. The root itself may be a link to a file. -/
def filesOf (f : Finder) (tree : Tree) (root : Bytes) : Except Error (List Bytes) :=
  let root := Path.clean root
  match tree.find true root with
  | .error fault => .error (.badRoot root fault)
  | .ok target =>
    if f.excludes root then .ok []
    else if target.isDir then
      match tree.find false root with
      | .error fault => .error (.badRoot root fault)
      | .ok place =>
        match unopened? f root true place with
        | some (directory, fault) => .error (.badWalk root directory fault)
        | none => .ok (filesBelow f root place)
    else .ok [root]

/-- The files that roots stand for, root by root. -/
def filesOfAll (f : Finder) (tree : Tree) : List Bytes → Except Error (List Bytes)
  | [] => .ok []
  | root :: roots => do
    let files ← filesOf f tree root
    let others ← filesOfAll f tree roots
    return files ++ others

/-- A list in order and without repetitions. -/
def sorted (files : List Bytes) : List Bytes := (files.mergeSort Bytes.le).eraseReps

/-- The files that roots stand for, in order and without repetition. -/
def find (f : Finder) (tree : Tree) (roots : List Bytes) : Except Error (List Bytes) :=
  if roots.isEmpty then .error .noRoots else (filesOfAll f tree roots).map sorted

end Finder

end LintPool
