import LintPool.Proofs.Path

/-!
# Cleaned paths

What is left of a path when it is made as short as it can be is a list of parts. Making the path
shorter once more leaves the same parts, and a name that is joined to the path is one more part.

## Main definitions

* `LintPool.Path.reduced` : the parts that are left of a path.
* `LintPool.Path.Settled` : parts that all stay if they are entered again.

## Main results

* `LintPool.Path.reduced_clean` : a cleaned path leaves the same parts.
* `LintPool.Path.reduced_join` : a name that is joined to a path is one more part.
-/

namespace LintPool

namespace Bytes

variable {sep : UInt8}

/-- The parts of a text with a separator in it are those before and those behind it. -/
lemma splitOn_append_sep (a b : Bytes) :
    splitOn sep (a ++ sep :: b) = splitOn sep a ++ splitOn sep b := by
  have haux : ∀ part parts, splitOnAux sep part parts (a ++ sep :: b) =
      splitOnAux sep part parts a ++ splitOn sep b := by
    induction a with
    | nil =>
      intro part parts
      rw [List.nil_append, splitOnAux.eq_2, if_pos rfl, splitOnAux]
      exact splitOnAux_append [] [] (part.reverse :: parts) b
    | cons c a ih =>
      intro part parts
      rw [List.cons_append, splitOnAux, splitOnAux]
      split
      · exact ih [] (part.reverse :: parts)
      · exact ih (c :: part) parts
  exact haux [] []

/-- The parts of a text do not hold the separator. -/
lemma notMem_of_mem_splitOn (s : Bytes) : ∀ part ∈ splitOn sep s, sep ∉ part := by
  induction hn : s.length using Nat.strong_induction_on generalizing s with
  | _ n ih =>
    rcases cases_splitOn sep s with hs | ⟨a, b, ha, rfl⟩
    · rw [splitOn_of_notMem hs]
      simpa using hs
    · have hshort : b.length < n := by
        simp only [List.length_append, List.length_cons] at hn
        omega
      rw [splitOn_append ha, List.forall_mem_cons]
      exact ⟨ha, ih b.length hshort b rfl⟩

end Bytes

namespace Path

/-- The parts that are left of a path when it is made as short as it can be, last first. -/
def reduced (path : Bytes) : List Bytes := (parts path).foldl (enter (isAbsolute path)) []

/-- Parts, last first, that all stay if they are entered again. -/
structure Settled (rooted : Bool) (kept : List Bytes) : Prop where
  ne_nil : ∀ part ∈ kept, part ≠ []
  ne_here : ∀ part ∈ kept, part ≠ here
  slash_notMem : ∀ part ∈ kept, slash ∉ part
  again : kept.reverse.foldl (enter rooted) [] = kept

section Kept

variable {rooted : Bool} {kept names : List Bytes} {part name path : Bytes}

/-- No parts are settled. -/
lemma settled_nil (rooted : Bool) : Settled rooted [] :=
  ⟨by simp, by simp, by simp, rfl⟩

/-- A part that is entered below settled parts. -/
lemma Settled.cons (h : Settled rooted kept) (hne : part ≠ []) (hhere : part ≠ here)
    (hslash : slash ∉ part) (henter : enter rooted kept part = part :: kept) :
    Settled rooted (part :: kept) where
  ne_nil := List.forall_mem_cons.mpr ⟨hne, h.ne_nil⟩
  ne_here := List.forall_mem_cons.mpr ⟨hhere, h.ne_here⟩
  slash_notMem := List.forall_mem_cons.mpr ⟨hslash, h.slash_notMem⟩
  again := by rw [List.reverse_cons, List.foldl_append, h.again, List.foldl_cons, henter,
    List.foldl_nil]

/-- The parts above a last part that leads down. -/
lemma Settled.tail {last : Bytes} (h : Settled rooted (last :: kept)) (hup : last ≠ up) :
    Settled rooted kept := by
  obtain ⟨hne, hkept⟩ := List.forall_mem_cons.mp h.ne_nil
  obtain ⟨hhere, hkept'⟩ := List.forall_mem_cons.mp h.ne_here
  obtain ⟨-, hkept''⟩ := List.forall_mem_cons.mp h.slash_notMem
  refine ⟨hkept, hkept', hkept'', ?_⟩
  have hagain := h.again
  rw [List.reverse_cons, List.foldl_append, List.foldl_cons, List.foldl_nil] at hagain
  simpa [enter, hne, hhere, hup] using hagain

/-- **Entering a part** keeps the parts settled. -/
lemma Settled.enter (h : Settled rooted kept) (hslash : slash ∉ part) :
    Settled rooted (enter rooted kept part) := by
  by_cases hstay : part = [] ∨ part = here
  · have hsame : Path.enter rooted kept part = kept := by
      rcases hstay with rfl | rfl
      · simp [Path.enter]
      · simp [Path.enter]
    rwa [hsame]
  · obtain ⟨hne, hhere⟩ := not_or.mp hstay
    by_cases hup : part = up
    · subst hup
      cases kept with
      | nil =>
        cases rooted with
        | true => exact settled_nil true
        | false => exact (settled_nil false).cons (by decide) (by decide) (by decide) rfl
      | cons last rest =>
        by_cases hlast : last = up
        · have henter : Path.enter rooted (last :: rest) up = up :: last :: rest := by
            simp [Path.enter, hlast, show up ≠ [] by decide, show up ≠ here by decide]
          rw [henter]
          exact h.cons (by decide) (by decide) (by decide) henter
        · have henter : Path.enter rooted (last :: rest) up = rest := by
            simp [Path.enter, hlast, show up ≠ [] by decide, show up ≠ here by decide]
          rw [henter]
          exact h.tail hlast
    · have henter := enter_of_isName rooted kept ⟨hne, hhere, hup, hslash⟩
      rw [henter]
      exact h.cons hne hhere hslash henter

/-- The parts that are left of a path are settled. -/
lemma settled_reduced (path : Bytes) : Settled (isAbsolute path) (reduced path) := by
  have hfold : ∀ names : List Bytes, (∀ part ∈ names, slash ∉ part) →
      ∀ kept, Settled (isAbsolute path) kept →
        Settled (isAbsolute path) (names.foldl (Path.enter (isAbsolute path)) kept) := by
    intro names
    induction names with
    | nil =>
      intro _ kept hkept
      exact hkept
    | cons part names ih =>
      intro hnames kept hkept
      obtain ⟨hpart, hnames⟩ := List.forall_mem_cons.mp hnames
      exact ih hnames _ (hkept.enter hpart)
  exact hfold (parts path) (Bytes.notMem_of_mem_splitOn path) [] (settled_nil _)

/-- A path of settled parts starts with a byte other than a slash. -/
lemma Settled.ofNames_eq_cons (h : Settled rooted kept) (hne : kept ≠ []) :
    ∃ b rest, ofNames kept.reverse = b :: rest ∧ b ≠ slash := by
  obtain ⟨name, names, hcons⟩ := List.exists_cons_of_ne_nil (List.reverse_ne_nil_iff.mpr hne)
  have hmem : name ∈ kept := by
    rw [← List.mem_reverse, hcons]
    exact List.mem_cons_self
  obtain ⟨b, rest, rfl⟩ := List.exists_cons_of_ne_nil (h.ne_nil name hmem)
  have hb : b ≠ slash := by
    rintro rfl
    exact h.slash_notMem _ hmem List.mem_cons_self
  rw [hcons]
  by_cases hnames : names = []
  · subst hnames
    exact ⟨b, rest, ofNames_singleton _, hb⟩
  · rw [ofNames_cons _ hnames]
    exact ⟨b, _, rfl, hb⟩

/-- A cleaned path in terms of the parts that are left. -/
lemma clean_eq (path : Bytes) :
    clean path = if isAbsolute path then slash :: ofNames (reduced path).reverse
      else if (reduced path).reverse.isEmpty then here else ofNames (reduced path).reverse := rfl

/-- **A cleaned path leaves the same parts**, and it starts at the root if the path does.

**Proof sketch.** The parts of the cleaned path are those that are left of the path, with an empty
part in front if the path starts at the root. They are settled, so all of them stay. -/
theorem reduced_clean (path : Bytes) : reduced (clean path) = reduced path := by
  have hsettled := settled_reduced path
  have hparts : reduced path ≠ [] →
      parts (ofNames (reduced path).reverse) = (reduced path).reverse := by
    intro hne
    apply parts_ofNames (by simpa using hne)
    simpa using hsettled.slash_notMem
  rw [clean_eq]
  cases habsolute : isAbsolute path with
  | true =>
    have hsplit : parts (slash :: ofNames (reduced path).reverse) =
        [] :: parts (ofNames (reduced path).reverse) := Bytes.splitOn_append (a := []) (by simp) _
    rw [habsolute] at hsettled
    by_cases hnil : reduced path = []
    · rw [hnil]
      rfl
    · have hagain := hsettled.again
      rw [if_pos rfl, reduced, hsplit, hparts hnil]
      exact hagain
  | false =>
    rw [habsolute] at hsettled
    by_cases hnil : reduced path = []
    · rw [hnil]
      rfl
    · have hagain := hsettled.again
      have hrelative : isAbsolute (ofNames (reduced path).reverse) = false := by
        obtain ⟨b, rest, hcons, hb⟩ := hsettled.ofNames_eq_cons hnil
        simp [isAbsolute, hcons, hb]
      rw [if_neg (by simp), if_neg (by simpa using hnil), reduced, hrelative, hparts hnil]
      exact hagain

/-- A cleaned path is not empty. -/
lemma clean_ne_nil (path : Bytes) : clean path ≠ [] := by
  rw [clean_eq]
  split
  · simp
  · split
    · decide
    · rename_i hnil
      obtain ⟨b, rest, hcons, -⟩ := (settled_reduced path).ofNames_eq_cons (by simpa using hnil)
      rw [hcons]
      exact List.cons_ne_nil b rest

/-- A name behind a path is one more part. -/
lemma reduced_append (hpath : path ≠ []) (h : IsName name) :
    reduced (path ++ slash :: name) = name :: reduced path := by
  have habsolute : isAbsolute (path ++ slash :: name) = isAbsolute path := by
    obtain ⟨b, rest, rfl⟩ := List.exists_cons_of_ne_nil hpath
    rfl
  have hparts : parts (path ++ slash :: name) = parts path ++ [name] := by
    rw [parts, Bytes.splitOn_append_sep, Bytes.splitOn_of_notMem h.slash_notMem]
    rfl
  rw [reduced, habsolute, hparts, List.foldl_append, List.foldl_cons, List.foldl_nil,
    enter_of_isName _ _ h]
  rfl

/-- **A name that is joined to a path** is one more part, and the path is not empty. -/
theorem reduced_join (hpath : path ≠ []) (h : IsName name) :
    reduced (join path name) = name :: reduced path ∧ join path name ≠ [] := by
  have hjoin : join path name = clean (path ++ slash :: name) := by
    simp [join, hpath, h.ne_nil]
  rw [hjoin]
  constructor
  · rw [reduced_clean, reduced_append hpath h]
  · exact clean_ne_nil _

end Kept

end Path

end LintPool
