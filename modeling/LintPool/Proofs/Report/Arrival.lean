import LintPool.Proofs.Report
import Mathlib

/-!
# Findings do not depend on the order of arrival

The results of a job come in as its workers finish. As long as no two of them have findings in the
same file, the report shows the same whatever order they came in: findings that sorting does not
separate are in one file, hence from one result, which keeps them in order. Only the failures are
shown as they arrived.

## Main definitions

* `LintPool.Result.Apart` : two results have no findings in the same file.

## Main results

* `LintPool.Result.total_same_of_perm` : the report of results in another order.
-/

namespace LintPool.Result

/-- Whether two results have no findings in the same file. -/
def Apart (r s : Result) : Prop :=
  ∀ d ∈ r.errors, ∀ e ∈ s.errors, d.isFileSpecific = true → e.isFileSpecific = true →
    d.file ≠ e.file

instance (r s : Result) : Decidable (Apart r s) :=
  inferInstanceAs (Decidable (∀ d ∈ r.errors, ∀ e ∈ s.errors, _))

section Arrival

variable {r s : Result} {rs ss : List Result}

/-- Being apart goes both ways. -/
lemma Apart.symm (h : Apart r s) : Apart s r :=
  fun e he d hd hspecific hspecific' heq => h d hd e he hspecific' hspecific heq.symm

/-- Of two results that are apart, one has no finding in a file. -/
lemma Apart.findingsIn (h : Apart r s) (file : Bytes) :
    r.findingsIn file = [] ∨ s.findingsIn file = [] := by
  by_contra hboth
  obtain ⟨hr, hs⟩ := not_or.mp hboth
  obtain ⟨d, hd⟩ := List.exists_mem_of_ne_nil _ hr
  obtain ⟨e, he⟩ := List.exists_mem_of_ne_nil _ hs
  simp only [Result.findingsIn, List.mem_filter, Bool.and_eq_true, beq_iff_eq] at hd he
  obtain ⟨hd, hspecific, rfl⟩ := hd
  obtain ⟨he, hspecific', heq⟩ := he
  exact h d hd e he hspecific hspecific' heq.symm

/-- **The findings in a file keep their order** when the results come in another one.

**Proof sketch.** By induction on the permutation. Where two results change places, one of them has
no finding in the file. -/
lemma findingsIn_total_of_perm (hperm : rs.Perm ss) (hapart : rs.Pairwise Apart) (file : Bytes) :
    (total rs).findingsIn file = (total ss).findingsIn file := by
  induction hperm with
  | nil => rfl
  | cons r _ ih =>
    rw [total_cons, total_cons, findingsIn_merge, findingsIn_merge,
      ih (List.pairwise_cons.mp hapart).2]
  | swap r s rs =>
    have hrs : Apart s r := (List.pairwise_cons.mp hapart).1 r List.mem_cons_self
    simp only [total_cons, findingsIn_merge]
    rcases hrs.findingsIn file with hnone | hnone
    · rw [hnone, List.nil_append, List.nil_append]
    · rw [hnone, List.nil_append, List.nil_append]
  | trans hfirst _ ih₁ ih₂ =>
    exact (ih₁ hapart).trans (ih₂ ((hfirst.pairwise_iff Apart.symm).mp hapart))

/-- **The report does not depend on the order of arrival.** If no two results have findings in the
same file, merging them in another order gives the same findings, element for element, the same
counts and the same flags, and the failures in another order. -/
theorem total_same_of_perm (hperm : rs.Perm ss) (hapart : rs.Pairwise Apart) :
    (total rs).fileErrors = (total ss).fileErrors ∧
      (total rs).files = (total ss).files ∧
      (total rs).internal = (total ss).internal ∧
      (total rs).infer = (total ss).infer ∧
      (total rs).hasFindings = (total ss).hasFindings ∧
      (total rs).otherErrors.Perm (total ss).otherErrors := by
  have hfindings : (total rs).fileErrors = (total ss).fileErrors :=
    fileErrors_congr fun file => findingsIn_total_of_perm hperm hapart file
  obtain ⟨hfiles, hinternal⟩ := counts_total_of_perm hperm
  refine ⟨hfindings, hfiles, hinternal, ?_, ?_, ?_⟩
  · rw [infer_total, infer_total, hperm.any_eq]
  · rw [hasFindings_eq, hasFindings_eq, hfindings]
  · rw [otherErrors_total, otherErrors_total]
    exact hperm.flatMap_right _

end Arrival

/-- Three results: findings that only differ by their message, with line 0, without a line and with
a line below 0; a finding in another file beside a failure; a failure alone. -/
def arrivals : List Result :=
  [{ errors := [⟨utf8 "x", utf8 "b", some 0, true⟩, ⟨utf8 "y", utf8 "b", none, true⟩,
        ⟨utf8 "z", utf8 "b", some (-1), true⟩], files := 1 },
    { errors := [.internalError (utf8 "c") (utf8 "no"), .finding (utf8 "a") 2 (utf8 "w")],
      files := 2, internal := 1 },
    .ofFailure (utf8 "lost")]

/-- These results show the same findings if they come in backwards. -/
theorem total_reverse_arrivals :
    arrivals.Pairwise Apart ∧
      (total arrivals.reverse).fileErrors = (total arrivals).fileErrors ∧
      (total arrivals).fileErrors.map (·.message) = [utf8 "w", utf8 "z", utf8 "x", utf8 "y"] := by
  have hapart : arrivals.Pairwise Apart := by decide
  exact ⟨hapart, (total_same_of_perm arrivals.reverse_perm.symm hapart).1.symm, by cbv⟩

end LintPool.Result
