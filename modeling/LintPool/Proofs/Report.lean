import LintPool.Report
import Mathlib.Data.List.Basic

/-!
# What a report shows

The findings of a report are sorted by file and line, and those of one line keep their order. Hence
they depend only on the findings of each file in order: results may be merged in any order that
keeps each file's findings together.

## Main definitions

* `LintPool.Result.total` : the merge of some results.
* `LintPool.Result.Agrees` : two reports show the same, but for the inference flag.

## Main results

* `LintPool.mergeSort_eq_mergeSort` : a stable sort depends on the classes of equal keys only.
* `LintPool.Result.fileErrors_congr` : the sorted findings depend on those of each file only.
* `LintPool.Result.agrees_split` : the results of files may be merged in two parts, the one after
  the other, if the files of the second part did not fail.
-/

namespace LintPool

/-! ## Stable sorting -/

section Sorting

variable {α : Type} {le : α → α → Bool} {l l₁ l₂ : List α}

/-- Whether two things have the same place in an order. -/
def ties (le : α → α → Bool) (x y : α) : Bool := le x y && le y x

/-- A stable sort keeps the order of what has the same place. -/
lemma filter_ties_mergeSort (trans : ∀ a b c, le a b → le b c → le a c)
    (total : ∀ a b, le a b || le b a) (x : α) (l : List α) :
    (l.mergeSort le).filter (ties le x) = l.filter (ties le x) := by
  have hties : (l.filter (ties le x)).Pairwise fun a b => le a b = true := by
    refine List.pairwise_of_forall_mem_list fun a ha b hb => ?_
    have hxa := Bool.and_eq_true_iff.mp (List.mem_filter.mp ha).2
    have hxb := Bool.and_eq_true_iff.mp (List.mem_filter.mp hb).2
    exact trans a x b hxa.2 hxb.1
  have hsub := (List.sublist_mergeSort trans total hties List.filter_sublist).filter (ties le x)
  rw [List.filter_filter] at hsub
  simp only [Bool.and_self] at hsub
  refine (hsub.eq_of_length ?_).symm
  exact ((List.mergeSort_perm l le).filter _).length_eq.symm

/-- What is in a list is found at its own place. -/
lemma mem_filter_ties (total : ∀ a b, le a b || le b a) {a : α} (ha : a ∈ l) :
    a ∈ l.filter (ties le a) := by
  have hrefl : le a a = true := by simpa using total a a
  exact List.mem_filter.mpr ⟨ha, by rw [ties, hrefl]; rfl⟩

/-- The first of a sorted list comes before all that another holds, if both hold the same. -/
lemma le_of_filter_ties {a b : α} (total : ∀ a b, le a b || le b a)
    (h₂ : (b :: l₂).Pairwise fun a b => le a b = true)
    (h : ∀ x, (a :: l₁).filter (ties le x) = (b :: l₂).filter (ties le x)) : le b a = true := by
  have ha : a ∈ (b :: l₂).filter (ties le a) := h a ▸ mem_filter_ties total List.mem_cons_self
  rcases List.mem_cons.mp (List.mem_filter.mp ha).1 with rfl | hmem
  · simpa using total a a
  · exact (List.pairwise_cons.mp h₂).1 a hmem

/-- **Sorted lists are equal if they hold the same at each place**, in the same order. -/
lemma eq_of_filter_ties (total : ∀ a b, le a b || le b a)
    (h₁ : l₁.Pairwise fun a b => le a b = true) (h₂ : l₂.Pairwise fun a b => le a b = true)
    (h : ∀ x, l₁.filter (ties le x) = l₂.filter (ties le x)) : l₁ = l₂ := by
  induction l₁ generalizing l₂ with
  | nil =>
    cases l₂ with
    | nil => rfl
    | cons b l₂ =>
      have hb : b ∈ (b :: l₂).filter (ties le b) := mem_filter_ties total List.mem_cons_self
      rw [← h b] at hb
      cases hb
  | cons a l₁ ih =>
    cases l₂ with
    | nil =>
      have ha : a ∈ (a :: l₁).filter (ties le a) := mem_filter_ties total List.mem_cons_self
      rw [h a] at ha
      cases ha
    | cons b l₂ =>
      -- the heads have the same place, so they are the first ones there
      have hba := le_of_filter_ties total h₂ h
      have hab := le_of_filter_ties total h₁ fun x => (h x).symm
      have hrefl : le a a = true := by simpa using total a a
      have ha := h a
      rw [List.filter_cons_of_pos (by rw [ties, hrefl]; rfl),
        List.filter_cons_of_pos (by rw [ties, hab, hba]; rfl)] at ha
      obtain ⟨rfl, -⟩ := List.cons.inj ha
      refine congrArg (a :: ·) (ih h₁.tail h₂.tail fun x => ?_)
      have hx := h x
      rw [List.filter_cons, List.filter_cons] at hx
      split at hx
      · exact (List.cons.inj hx).2
      · exact hx

/-- **A stable sort depends on the order at each place only.** -/
theorem mergeSort_eq_mergeSort (trans : ∀ a b c, le a b → le b c → le a c)
    (total : ∀ a b, le a b || le b a)
    (h : ∀ x, l₁.filter (ties le x) = l₂.filter (ties le x)) :
    l₁.mergeSort le = l₂.mergeSort le := by
  refine eq_of_filter_ties total (List.pairwise_mergeSort trans total l₁)
    (List.pairwise_mergeSort trans total l₂) fun x => ?_
  rw [filter_ties_mergeSort trans total, filter_ties_mergeSort trans total, h]

end Sorting

/-! ## The order of findings -/

namespace Bytes

/-- The order of texts is transitive. -/
lemma le_trans (a b c : Bytes) (hab : le a b) (hbc : le b c) : le a c :=
  decide_eq_true (List.le_trans (of_decide_eq_true hab) (of_decide_eq_true hbc))

/-- The order of texts is total. -/
lemma le_total (a b : Bytes) : le a b || le b a := by
  rw [Bool.or_eq_true]
  exact (List.le_total a b).imp decide_eq_true decide_eq_true

/-- The order of texts is antisymmetric. -/
lemma le_antisymm {a b : Bytes} (hab : le a b) (hba : le b a) : a = b :=
  List.le_antisymm (of_decide_eq_true hab) (of_decide_eq_true hba)

end Bytes

namespace Result

section Findings

variable {a b c : Diagnostic} {r s : Result}

/-- Findings of one file are in the order of their lines. -/
lemma findingLe_of_eq (h : a.file = b.file) : findingLe a b = decide (a.lineKey ≤ b.lineKey) := by
  rw [findingLe, if_pos h]

/-- Findings of different files are in the order of these. -/
lemma findingLe_of_ne (h : a.file ≠ b.file) : findingLe a b = Bytes.le a.file b.file := by
  rw [findingLe, if_neg h]

/-- The order of findings is transitive. -/
lemma findingLe_trans (a b c : Diagnostic) (hab : findingLe a b) (hbc : findingLe b c) :
    findingLe a c := by
  by_cases hac : a.file = c.file
  · by_cases heq : a.file = b.file
    · rw [findingLe_of_eq heq, decide_eq_true_eq] at hab
      rw [findingLe_of_eq (heq ▸ hac), decide_eq_true_eq] at hbc
      rw [findingLe_of_eq hac, decide_eq_true_eq]
      exact Int64.le_trans hab hbc
    · rw [findingLe_of_ne heq] at hab
      rw [findingLe_of_ne fun h => heq (hac.trans h.symm), ← hac] at hbc
      exact absurd (Bytes.le_antisymm hab hbc) heq
  · rw [findingLe_of_ne hac]
    by_cases heq : a.file = b.file
    · rw [findingLe_of_ne (heq ▸ hac), ← heq] at hbc
      exact hbc
    · rw [findingLe_of_ne heq] at hab
      by_cases hbc' : b.file = c.file
      · exact hbc' ▸ hab
      · rw [findingLe_of_ne hbc'] at hbc
        exact Bytes.le_trans _ _ _ hab hbc

/-- The order of findings is total. -/
lemma findingLe_total (a b : Diagnostic) : findingLe a b || findingLe b a := by
  by_cases heq : a.file = b.file
  · rw [findingLe_of_eq heq, findingLe_of_eq heq.symm, Bool.or_eq_true]
    exact (Int64.le_total a.lineKey b.lineKey).imp decide_eq_true decide_eq_true
  · rw [findingLe_of_ne heq, findingLe_of_ne fun h => heq h.symm]
    exact Bytes.le_total a.file b.file

/-- Findings with the same place are in the same file. -/
lemma file_eq_of_ties (h : ties findingLe a b) : a.file = b.file := by
  obtain ⟨hab, hba⟩ := Bool.and_eq_true_iff.mp h
  by_cases heq : a.file = b.file
  · exact heq
  · rw [findingLe_of_ne heq] at hab
    rw [findingLe_of_ne fun h => heq h.symm] at hba
    exact Bytes.le_antisymm hab hba

/-- The findings in a file, in order. -/
def findingsIn (r : Result) (file : Bytes) : List Diagnostic :=
  r.errors.filter fun d => d.isFileSpecific && d.file == file

/-- **The sorted findings depend on those of each file only.** -/
theorem fileErrors_congr (h : ∀ file, r.findingsIn file = s.findingsIn file) :
    r.fileErrors = s.fileErrors := by
  refine mergeSort_eq_mergeSort findingLe_trans findingLe_total fun x => ?_
  -- what has the place of `x` is in its file
  have hplace : ∀ r : Result, (r.errors.filter (·.isFileSpecific)).filter (ties findingLe x) =
      (r.findingsIn x.file).filter (ties findingLe x) := by
    intro r
    rw [findingsIn, List.filter_filter, List.filter_filter]
    refine List.filter_congr fun d _ => ?_
    cases hties : ties findingLe x d with
    | false => rfl
    | true => simp [file_eq_of_ties hties]
  rw [hplace, hplace, h]

/-- There are findings if and only if the sorted list has some. -/
lemma hasFindings_eq (r : Result) : r.hasFindings = !r.fileErrors.isEmpty := by
  rw [Bool.eq_iff_iff, hasFindings, List.any_eq_true, Bool.not_eq_true',
    List.isEmpty_eq_false_iff_exists_mem]
  simp only [fileErrors, List.mem_mergeSort, List.mem_filter]

end Findings

/-! ## Merging -/

section Merging

variable {r s : Result} {rs ss : List Result}

/-- Merging is associative. -/
lemma merge_assoc (r s t : Result) : (r.merge s).merge t = r.merge (s.merge t) := by
  simp only [merge, List.append_assoc, Int64.add_assoc, Bool.or_assoc]

/-- The empty result adds nothing in front. -/
@[simp] lemma empty_merge (r : Result) : merge {} r = r := by
  simp only [merge, List.nil_append, Int64.zero_add, Bool.false_or]

/-- The empty result adds nothing at the end. -/
@[simp] lemma merge_empty (r : Result) : r.merge {} = r := by
  simp only [merge, List.append_nil, Int64.add_zero, Bool.or_false]

/-- The merge of some results, in order. -/
def total (rs : List Result) : Result := rs.foldl merge {}

/-- Merging results into one adds their total. -/
lemma foldl_merge (r : Result) (rs : List Result) : rs.foldl merge r = r.merge (total rs) := by
  induction rs generalizing r with
  | nil => exact (merge_empty r).symm
  | cons s rs ih =>
    rw [total, List.foldl_cons, List.foldl_cons, ih, ih (merge {} s), empty_merge, merge_assoc]

/-- The total of no results is empty. -/
@[simp] lemma total_nil : total [] = {} := rfl

/-- The first result comes first in the total. -/
@[simp] lemma total_cons (r : Result) (rs : List Result) :
    total (r :: rs) = r.merge (total rs) := by
  rw [total, List.foldl_cons, foldl_merge, empty_merge]

/-- Totals of lists merge as the lists are appended. -/
lemma total_append (rs ss : List Result) : total (rs ++ ss) = (total rs).merge (total ss) := by
  rw [total, List.foldl_append, foldl_merge]
  rfl

/-- The diagnostics of a total are those of its results, in order. -/
lemma errors_total (rs : List Result) : (total rs).errors = rs.flatMap (·.errors) := by
  induction rs with
  | nil => rfl
  | cons r rs ih => rw [total_cons, merge, ih, List.flatMap_cons]

/-- The findings in a file merge in order. -/
lemma findingsIn_merge (r s : Result) (file : Bytes) :
    (r.merge s).findingsIn file = r.findingsIn file ++ s.findingsIn file :=
  List.filter_append ..

/-- The failures merge in order. -/
lemma otherErrors_merge (r s : Result) :
    (r.merge s).otherErrors = r.otherErrors ++ s.otherErrors :=
  List.filter_append ..

/-- The failures of a total are those of its results, in order. -/
lemma otherErrors_total (rs : List Result) :
    (total rs).otherErrors = rs.flatMap (·.otherErrors) := by
  rw [otherErrors, errors_total, List.filter_flatMap]
  rfl

/-- A total has the inference flag if one of its results has. -/
lemma infer_total (rs : List Result) : (total rs).infer = rs.any (·.infer) := by
  induction rs with
  | nil => rfl
  | cons r rs ih => rw [total_cons, merge, ih, List.any_cons]

/-- The counts of a total do not depend on the order of the results. -/
lemma counts_total_of_perm (h : rs.Perm ss) :
    (total rs).files = (total ss).files ∧ (total rs).internal = (total ss).internal := by
  induction h with
  | nil => exact ⟨rfl, rfl⟩
  | cons r _ ih =>
    simp only [total_cons, merge]
    exact ⟨congrArg (r.files + ·) ih.1, congrArg (r.internal + ·) ih.2⟩
  | swap r s rs =>
    simp only [total_cons, merge]
    have hcomm : ∀ a b c : Int64, a + (b + c) = b + (a + c) := fun a b c => by
      rw [← Int64.add_assoc, ← Int64.add_assoc, Int64.add_comm a]
    exact ⟨hcomm .., hcomm ..⟩
  | trans _ _ ih₁ ih₂ => exact ⟨ih₁.1.trans ih₂.1, ih₁.2.trans ih₂.2⟩

end Merging

/-! ## Files in two parts -/

/-- Two reports show the same findings, failures and counts. -/
structure Agrees (r s : Result) : Prop where
  fileErrors : r.fileErrors = s.fileErrors
  otherErrors : r.otherErrors = s.otherErrors
  files : r.files = s.files
  internal : r.internal = s.internal

section Parts

variable {files : List Bytes} {result : Bytes → Result} {part : Bytes → Bool}

/-- Over a list without repetitions, a function that is not empty at `a` only comes to its value
there. -/
lemma flatMap_of_nodup {β : Type} {h : Bytes → List β} {a : Bytes} (hnodup : files.Nodup)
    (hother : ∀ x ∈ files, x ≠ a → h x = []) :
    files.flatMap h = if a ∈ files then h a else [] := by
  induction files with
  | nil => rfl
  | cons x files ih =>
    obtain ⟨hx, hnodup⟩ := List.nodup_cons.mp hnodup
    obtain ⟨hxa, hother⟩ := List.forall_mem_cons.mp hother
    rw [List.flatMap_cons, ih hnodup hother]
    by_cases heq : x = a
    · subst heq
      rw [if_neg hx, if_pos List.mem_cons_self, List.append_nil]
    · rw [hxa heq, List.nil_append]
      simp only [List.mem_cons, Ne.symm heq, false_or]

/-- What comes to nothing outside of a part may be left out there. -/
lemma flatMap_filter_of_quiet {β : Type} {h : Bytes → List β}
    (hquiet : ∀ f ∈ files, part f = false → h f = []) :
    (files.filter part).flatMap h = files.flatMap h := by
  induction files with
  | nil => rfl
  | cons f files ih =>
    obtain ⟨hf, hquiet⟩ := List.forall_mem_cons.mp hquiet
    rw [List.flatMap_cons, ← ih hquiet]
    cases hpart : part f with
    | true => rw [List.filter_cons_of_pos hpart, List.flatMap_cons]
    | false => rw [List.filter_cons_of_neg (by simp [hpart]), hf hpart, List.nil_append]

/-- The findings in a file among the results of different files are those of its own result. -/
lemma findingsIn_total (hnodup : files.Nodup)
    (hown : ∀ f ∈ files, ∀ d ∈ (result f).errors, d.isFileSpecific = true → d.file = f)
    (file : Bytes) :
    (total (files.map result)).findingsIn file =
      if file ∈ files then (result file).findingsIn file else [] := by
  rw [findingsIn, errors_total, List.flatMap_map, List.filter_flatMap]
  refine flatMap_of_nodup hnodup fun f hf hne => ?_
  refine List.filter_eq_nil_iff.mpr fun d hd hspecific => ?_
  obtain ⟨hspecific, hfile⟩ := Bool.and_eq_true_iff.mp hspecific
  exact hne ((hown f hf d hd hspecific).symm.trans (beq_iff_eq.mp hfile))

/-- **Files in two parts.** The results of different files may be merged in two parts, if each
result has findings in its own file only and the files of the second part did not fail.

**Proof sketch.** The findings in a file come from one result, which is in one of the parts; so they
are in the same order in both reports, and this is all that sorting looks at. The failures come from
the first part, and the counts do not depend on the order at all. -/
theorem agrees_split (hnodup : files.Nodup)
    (hown : ∀ f ∈ files, ∀ d ∈ (result f).errors, d.isFileSpecific = true → d.file = f)
    (hquiet : ∀ f ∈ files, part f = false → (result f).otherErrors = []) :
    Agrees ((total ((files.filter part).map result)).merge
      (total ((files.filter (!part ·)).map result))) (total (files.map result)) := by
  have hperm := (List.filter_append_perm part files).map result
  rw [List.map_append] at hperm
  obtain ⟨hfiles, hinternal⟩ := counts_total_of_perm hperm
  rw [total_append] at hfiles hinternal
  refine ⟨fileErrors_congr fun file => ?_, ?_, hfiles, hinternal⟩
  · -- the two parts hold the file once, if at all
    rw [findingsIn_merge, findingsIn_total hnodup hown,
      findingsIn_total (hnodup.filter _) fun f hf => hown f (List.mem_of_mem_filter hf),
      findingsIn_total (hnodup.filter _) fun f hf => hown f (List.mem_of_mem_filter hf)]
    simp only [List.mem_filter]
    cases part file <;> by_cases hmem : file ∈ files <;> simp [hmem]
  · have hsecond : (files.filter (!part ·)).flatMap (fun f => (result f).otherErrors) = [] := by
      refine List.flatMap_eq_nil_iff.mpr fun f hf => ?_
      obtain ⟨hf, hpart⟩ := List.mem_filter.mp hf
      exact hquiet f hf (by simpa using hpart)
    rw [otherErrors_merge, otherErrors_total, otherErrors_total, otherErrors_total,
      List.flatMap_map, List.flatMap_map, List.flatMap_map, hsecond, List.append_nil,
      flatMap_filter_of_quiet hquiet]

end Parts

end Result

end LintPool
