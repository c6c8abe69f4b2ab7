import LintPool.Proofs.Discovery.Exact
import LintPool.Proofs.Path.Clean
import LintPool.Proofs.Text.Utf8

/-!
# Roots that are links to directories

What a root is, is told from where it leads to, and there a link to a directory is a directory. The
walk starts at the root itself, and there it is a link, which is not followed. So a link to a
directory stands at most for itself, and what lies below the directory is not found. Directories
that are roots by their own paths are walked into, see `LintPool.Finder.find_exact`.

## Main definitions

* `LintPool.Tree.Node.HoldsFile` : names lead to a file.

## Main results

* `LintPool.Path.descend_ne` : names lead away from a path.
* `LintPool.Finder.find_of_linked_root` : what is found for a link to a directory.
* `LintPool.Finder.find_linked_root_iff` : the files below the directory are found only if there are
  none.
* `LintPool.Finder.linked_root_not_walked` : a file that is not found.
-/

namespace LintPool

namespace Path

variable {path : Bytes} {names : List Bytes}

/-- Names are further parts of a path. -/
lemma reduced_descend (hpath : path ≠ []) (hnames : ∀ name ∈ names, IsName name) :
    reduced (descend path names) = names.reverse ++ reduced path := by
  induction names generalizing path with
  | nil => rfl
  | cons name names ih =>
    obtain ⟨hname, hnames⟩ := List.forall_mem_cons.mp hnames
    obtain ⟨hreduced, hjoin⟩ := reduced_join hpath hname
    rw [descend, List.foldl_cons, ← descend, ih hjoin hnames, hreduced]
    simp

/-- **Names lead away from a path.** -/
theorem descend_ne (hpath : path ≠ []) (hnames : ∀ name ∈ names, IsName name) (hne : names ≠ []) :
    descend path names ≠ path := by
  intro hsame
  have hreduced := reduced_descend hpath hnames
  rw [hsame] at hreduced
  exact hne (by simpa using hreduced)

end Path

/-- Names lead from a directory to a file in or below it. -/
def Tree.Node.HoldsFile (node : Tree.Node) (names : List Bytes) : Prop :=
  (∀ name ∈ names, Path.IsName name) ∧
    ∃ content readable, node.LeadsTo names (.file content readable)

namespace Finder

variable {f : Finder} {tree : Tree} {target : Tree.Node} {root link : Bytes} {names : List Bytes}

/-- At most one file is in order. -/
lemma sorted_of_length_le {files : List Bytes} (h : files.length ≤ 1) : sorted files = files := by
  cases files with
  | nil =>
    rw [sorted, List.mergeSort_nil]
    rfl
  | cons path rest =>
    obtain rfl : rest = [] := by simpa using h
    rw [sorted, List.mergeSort_singleton]
    rfl

/-- The files of a link to a directory: at most the link itself. -/
lemma filesOf_of_linked_root (hlink : tree.find false (Path.clean root) = .ok (.link link))
    (htarget : tree.find true (Path.clean root) = .ok target) (hdir : target.isDir = true) :
    f.filesOf tree root =
      .ok (if f.excludes (Path.clean root) = false ∧ f.hasExtension (Path.clean root) = true then
        [Path.clean root] else []) := by
  by_cases hroot : f.excludes (Path.clean root)
  · simp [filesOf, htarget, hroot]
  · simp [filesOf, htarget, hroot, hdir, hlink, unopened?, filesBelow]

/-- **What is found for a link to a directory**: the link itself if it has the right extension and
is not excluded, and nothing else. -/
lemma find_of_linked_root (hlink : tree.find false (Path.clean root) = .ok (.link link))
    (htarget : tree.find true (Path.clean root) = .ok target) (hdir : target.isDir = true) :
    f.find tree [root] =
      .ok (if f.excludes (Path.clean root) = false ∧ f.hasExtension (Path.clean root) = true then
        [Path.clean root] else []) := by
  rw [find, if_neg (by simp), filesOfAll, filesOf_of_linked_root hlink htarget hdir]
  refine congrArg Except.ok ?_
  rw [List.append_nil, sorted_of_length_le]
  split
  · exact le_refl 1
  · exact Nat.zero_le 1

/-- **Files below a link to a directory** are found only if there are none: all that is found is the
link itself, if it has the right extension and is not excluded. -/
theorem find_linked_root_iff (hlink : tree.find false (Path.clean root) = .ok (.link link))
    (htarget : tree.find true (Path.clean root) = .ok target) (hdir : target.isDir = true) :
    ∃ files, f.find tree [root] = .ok files ∧
      files = (if f.excludes (Path.clean root) = false ∧
        f.hasExtension (Path.clean root) = true then [Path.clean root] else []) ∧
      ((∀ names, target.HoldsFile names →
          f.hasExtension (Path.descend (Path.clean root) names) = true →
          Path.descend (Path.clean root) names ∈ files) ↔
        ∀ names, target.HoldsFile names →
          f.hasExtension (Path.descend (Path.clean root) names) = false) := by
  refine ⟨_, find_of_linked_root hlink htarget hdir, rfl, ?_⟩
  constructor
  · intro hall names hholds
    by_contra hextension
    have hfound := hall names hholds ((Bool.not_eq_false _).mp hextension)
    obtain ⟨hnames, content, readable, hleads⟩ := hholds
    have hne : names ≠ [] := by
      rintro rfl
      rw [← Tree.Node.leadsTo_nil.mp hleads] at hdir
      cases hdir
    have hsame : Path.descend (Path.clean root) names = Path.clean root := by
      split at hfound
      · exact List.mem_singleton.mp hfound
      · cases hfound
    exact Path.descend_ne (Path.clean_ne_nil root) hnames hne hsame
  · intro hnone names hholds hextension
    rw [hnone names hholds] at hextension
    cases hextension

/-! ## Examples -/

/-- What the link of the sample leads to. -/
def linkTarget : Tree.Node := .dir [(utf8 "a.php", .file [])]

/-- A directory with a source file, and a link to it. -/
def linkTree : Tree where
  root := .dir [(utf8 "d", linkTarget), (utf8 "l", .link (utf8 "d"))]

/-- The link of the sample, if it is not followed. -/
lemma find_false_linkTree :
    linkTree.find false (Path.clean (utf8 "l")) = .ok (.link (utf8 "d")) := by
  cbv

/-- The link of the sample, if it is followed. -/
lemma find_true_linkTree : linkTree.find true (Path.clean (utf8 "l")) = .ok linkTarget := by
  cbv

/-- The extensions in the sample. -/
lemma hasExtension_linkTree :
    openFinder.hasExtension (utf8 "l/a.php") = true ∧
      openFinder.hasExtension (Path.clean (utf8 "l")) = false := by
  have hpoint : dropPoint (utf8 "php") = utf8 "php" := by decide
  have hfile : Path.extension? (utf8 "l/a.php") = some (utf8 "php") := by decide
  have hlink : Path.extension? (Path.clean (utf8 "l")) = none := by decide
  have hsame : CaseFold.eqFold (utf8 "php") (utf8 "php") = true := beq_self_eq_true _
  have hdiffer : CaseFold.eqFold [] (utf8 "php") = false := by
    have hempty : Utf8.scalars [] = [] := Utf8.scalarsAux_nil []
    have hphp : Utf8.scalars (utf8 "php") = 'p' :: Utf8.scalars (utf8 "hp") :=
      Utf8.scalars_of_head? (by decide)
    simp [CaseFold.eqFold, CaseFold.foldText, hempty, hphp]
  simp [hasExtension, openFinder, hpoint, hfile, hlink, hsame, hdiffer]

/-- The link of the sample as a root. -/
theorem find_linked_root_iff_sample :
    linkTree.find false (Path.clean (utf8 "l")) = .ok (.link (utf8 "d")) ∧
      linkTree.find true (Path.clean (utf8 "l")) = .ok linkTarget ∧ linkTarget.isDir = true ∧
      ∃ files, openFinder.find linkTree [utf8 "l"] = .ok files ∧
        files = (if openFinder.excludes (Path.clean (utf8 "l")) = false ∧
          openFinder.hasExtension (Path.clean (utf8 "l")) = true then [Path.clean (utf8 "l")]
          else []) ∧
        ((∀ names, linkTarget.HoldsFile names →
            openFinder.hasExtension (Path.descend (Path.clean (utf8 "l")) names) = true →
            Path.descend (Path.clean (utf8 "l")) names ∈ files) ↔
          ∀ names, linkTarget.HoldsFile names →
            openFinder.hasExtension (Path.descend (Path.clean (utf8 "l")) names) = false) := by
  exact ⟨find_false_linkTree, find_true_linkTree, rfl,
    find_linked_root_iff find_false_linkTree find_true_linkTree rfl⟩

/-- **A file below a link to a directory is not found**, although nothing is excluded and it has the
right extension. -/
theorem linked_root_not_walked :
    linkTree.find true (Path.clean (utf8 "l")) = .ok linkTarget ∧ linkTarget.isDir = true ∧
      (∀ path, openFinder.excludes path = false) ∧ linkTarget.HoldsFile [utf8 "a.php"] ∧
      Path.descend (Path.clean (utf8 "l")) [utf8 "a.php"] = utf8 "l/a.php" ∧
      openFinder.hasExtension (utf8 "l/a.php") = true ∧
      openFinder.find linkTree [utf8 "l"] = .ok [] := by
  have hname : Path.IsName (utf8 "a.php") := ⟨by decide, by decide, by decide, by decide⟩
  obtain ⟨hfile, hroot⟩ := hasExtension_linkTree
  refine ⟨find_true_linkTree, rfl, excludes_openFinder, ⟨by simpa using hname, [], true, ?_⟩,
    by decide, hfile, ?_⟩
  · exact .entry (List.mem_singleton.mpr rfl) (.here _)
  · rw [find_of_linked_root find_false_linkTree find_true_linkTree rfl, if_neg (by simp [hroot])]

end Finder

end LintPool
