import LintPool.Path

/-!
# File trees

The directories, files and symbolic links that a program meets, from the root directory down, and
the directory that it works in. Relative paths start in the working directory, absolute ones at the
root, and above the root there is nothing.

Not everything has to be open to the program. A directory can be closed to listing its entries, or
to paths that lead through it, and a file to reading. What is neither a directory nor a link counts
as a file.

## Main definitions

* `LintPool.Tree.Node` : a directory, file or link.
* `LintPool.Tree` : a root directory and a working directory.
* `LintPool.Tree.find` : what a path leads to, with or without following a link at its end.
* `LintPool.Tree.read` : the content of a file.
* `LintPool.Tree.write`, `LintPool.Tree.remove` : a tree with something added or taken away.
-/

namespace LintPool

/-- A file, a directory with its entries, or a symbolic link. -/
inductive Tree.Node where
  | file (content : Bytes) (readable : Bool := true)
  /-- The entries of a directory can be listed if it is `readable`, and paths can lead through it if
  it is `searchable`. -/
  | dir (entries : List (Bytes × Tree.Node)) (readable : Bool := true) (searchable : Bool := true)
  | link (target : Bytes)

/-- All that there is from the root directory on, and where in it a program works. -/
structure Tree where
  root : Tree.Node
  /-- The names that lead from the root to the working directory. -/
  cwd : List Bytes := []

namespace Tree

/-- Why a path leads nowhere, or why what it leads to cannot be opened. -/
inductive Fault where
  | missing
  | notDirectory
  | linkLoop
  | nameTooLong
  | badName
  | denied
  deriving DecidableEq

/-- The message of a fault. -/
def Fault.message : Fault → Bytes
  | .missing => utf8 "no such file or directory"
  | .notDirectory => utf8 "not a directory"
  | .linkLoop => utf8 "too many levels of symbolic links"
  | .nameTooLong => utf8 "file name too long"
  | .badName => utf8 "invalid argument"
  | .denied => utf8 "permission denied"

namespace Node

/-- The entries of a directory; other things have none. -/
def entries : Node → List (Bytes × Node)
  | .dir entries _ _ => entries
  | _ => []

/-- Whether something is a directory. -/
def isDir : Node → Bool
  | .dir _ _ _ => true
  | _ => false

/-- Whether a file can be read, or the entries of a directory be listed. -/
def isReadable : Node → Bool
  | .file _ readable => readable
  | .dir _ readable _ => readable
  | .link _ => true

/-- Whether paths can lead through something. -/
def isSearchable : Node → Bool
  | .dir _ _ searchable => searchable
  | _ => false

/-- The place that names lead to from `here`, which lies in the directories `above`: all that it
lies in, the nearest first, and what is there. -/
def along? (above : List Node) (here : Node) : List Bytes → Option (List Node × Node)
  | [] => some (above, here)
  | name :: names =>
    match here.entries.lookup name with
    | some entry => along? (here :: above) entry names
    | none => none

end Node

/-! ## Following paths -/

/-- The greatest number of links on the way along a path. -/
def maxLinks : Nat := 40

/-- The greatest length of a name. -/
def maxName : Nat := 255

/-- Paths are shorter than this. -/
def maxPath : Nat := 4096

/-- Goes on along the parts of a path from the directory `here`, which lies in the directories
`above`, the nearest first; the root lies in itself. At most `links` links are followed, one at the
end of the path only if `follow`. -/
def walk (root : Node) (follow : Bool) (links : Nat) (above : List Node) (here : Node)
    (path : List Bytes) : Except Fault Node :=
  match path with
  | [] => .ok here
  | part :: rest =>
    if !here.isDir then .error .notDirectory
    else if part.isEmpty then walk root follow links above here rest
    else if !here.isSearchable then .error .denied
    else if part == Path.here then walk root follow links above here rest
    else if part == Path.up then
      match above with
      | [] => walk root follow links [] here rest
      | parent :: above => walk root follow links above parent rest
    else if maxName < part.length then .error .nameTooLong
    else
      match here.entries.lookup part with
      | none => .error .missing
      | some (.link target) =>
        if rest.isEmpty && !follow then .ok (.link target)
        else
          match links with
          | 0 => .error .linkLoop
          | links + 1 =>
            if Path.isAbsolute target then
              walk root follow links [] root (Path.parts target ++ rest)
            else walk root follow links above here (Path.parts target ++ rest)
      | some entry => walk root follow links (here :: above) entry rest
termination_by (links, path.length)

/-- Where a path starts: at the root if it is absolute, and otherwise in the working directory. -/
def start? (tree : Tree) (path : Bytes) : Option (List Node × Node) :=
  if Path.isAbsolute path then some ([], tree.root) else tree.root.along? [] tree.cwd

/-- What a path leads to. A link at its end is followed if `follow`. From a working directory that
is gone, no path leads anywhere. -/
def find (tree : Tree) (follow : Bool) (path : Bytes) : Except Fault Node :=
  if path.contains 0 then .error .badName
  else if path.isEmpty then .error .missing
  else if maxPath ≤ path.length then .error .nameTooLong
  else
    match tree.start? path with
    | some (above, here) => walk tree.root follow maxLinks above here (Path.parts path)
    | none => .error .missing

/-- Whether a path leads somewhere. -/
def exists? (tree : Tree) (path : Bytes) : Bool := (tree.find true path).toOption.isSome

/-! ## Reading -/

/-- Why a file could not be read. -/
inductive ReadError where
  | closed (path : Bytes) (fault : Fault)
  | directory (path : Bytes)
  deriving DecidableEq

/-- The message of a reading error. -/
def ReadError.message : ReadError → Bytes
  | .closed path fault => utf8 "open " ++ path ++ utf8 ": " ++ fault.message
  | .directory path => utf8 "read " ++ path ++ utf8 ": is a directory"

/-- Whether the error is that there is no such file. -/
def ReadError.isMissing : ReadError → Bool
  | .closed _ .missing => true
  | _ => false

/-- The content of a file. -/
def read (tree : Tree) (path : Bytes) : Except ReadError Bytes :=
  match tree.find true path with
  | .error fault => .error (.closed path fault)
  | .ok node =>
    if !node.isReadable then .error (.closed path .denied)
    else
      match node with
      | .file content _ => .ok content
      | _ => .error (.directory path)

/-! ## Writing -/

/-- Entries with one of them replaced or added. -/
def setEntry (name : Bytes) (new : Node) : List (Bytes × Node) → List (Bytes × Node)
  | [] => [(name, new)]
  | (other, entry) :: rest =>
    if other == name then (name, new) :: rest else (other, entry) :: setEntry name new rest

/-- Something with other entries: a directory stays as open as it was, and all else becomes an open
directory. -/
def Node.withEntries (old : Option Node) (entries : List (Bytes × Node)) : Node :=
  match old with
  | some (.dir _ readable searchable) => .dir entries readable searchable
  | _ => .dir entries

/-- What the thing at the end of names becomes part of if it is changed by `change`. Directories on
the way are made as needed. -/
def Node.modify (change : Option Node → Node) : (names : List Bytes) → Option Node → Node
  | [], old => change old
  | name :: names, old =>
    let entries := (old.map Node.entries).getD []
    withEntries old (setEntry name (modify change names (entries.lookup name)) entries)

/-- Something without what is at the end of names and all below it. -/
def Node.removeAt : (names : List Bytes) → Node → Node
  | [], node => node
  | [name], .dir entries readable searchable =>
    .dir (entries.filter (·.1 != name)) readable searchable
  | name :: names, .dir entries readable searchable =>
    match entries.lookup name with
    | some entry => .dir (setEntry name (removeAt names entry) entries) readable searchable
    | none => .dir entries readable searchable
  | _, node => node

/-- The names along a path. -/
def names (path : Bytes) : List Bytes :=
  (Path.parts (Path.clean path)).filter fun part => !(part.isEmpty || part == Path.here)

/-- The names from the root on along a path without links. -/
def namesFromRoot (tree : Tree) (path : Bytes) : List Bytes :=
  if Path.isAbsolute path then names path else tree.cwd ++ names path

/-- A tree in which the thing at a path is changed by `change`. -/
def modify (tree : Tree) (path : Bytes) (change : Option Node → Node) : Tree :=
  { tree with root := Node.modify change (tree.namesFromRoot path) (some tree.root) }

/-- A tree with something put at a path. -/
def write (tree : Tree) (path : Bytes) (new : Node) : Tree := tree.modify path fun _ => new

/-- A tree with a directory at a path. -/
def makeDir (tree : Tree) (path : Bytes) : Tree :=
  tree.modify path fun old => Node.withEntries old ((old.map Node.entries).getD [])

/-- A tree without the thing at a path and all below it. -/
def remove (tree : Tree) (path : Bytes) : Tree :=
  { tree with root := Node.removeAt (tree.namesFromRoot path) tree.root }

end Tree

end LintPool
