import LintPool.Schedule
import Mathlib

/-!
# What a schedule shares out

The batches of a schedule are the files of the job, cut into parts: none is lost, and no part is
empty or longer than a batch may be.

## Main results

* `LintPool.Schedule.flatten_jobs_plan` : the batches together are the files of the job.
* `LintPool.Schedule.length_pos_of_mem_jobs`, `LintPool.Schedule.length_lt_of_mem_jobs` : the size
  of a batch is positive and fits in 63 bits.
* `LintPool.Schedule.length_jobs_le` : there are no more batches than files.
-/

namespace LintPool.Schedule

section Chunks

variable {α : Type} {size : Nat} {xs chunk : List α}

/-- The parts of a list together are the list. -/
lemma flatten_chunks (size : Nat) (xs : List α) : (chunks size xs).flatten = xs := by
  fun_induction chunks size xs with
  | case1 => rfl
  | case2 x xs ih => simp [ih]

/-- No part of a list is empty, and none is longer than it may be. -/
lemma length_of_mem_chunks (h : chunk ∈ chunks size xs) :
    0 < chunk.length ∧ chunk.length ≤ size + 1 := by
  fun_induction chunks size xs with
  | case1 => cases h
  | case2 x xs ih =>
    rcases List.mem_cons.mp h with rfl | h
    · simp only [List.length_cons, List.length_take]
      omega
    · exact ih h

end Chunks

section Plan

variable {files : List Bytes} {maxProcesses jobSize minJobs : Int64} {job : List Bytes}

/-- The batches of a schedule are the parts of the list of files. -/
lemma jobs_plan (files : List Bytes) (maxProcesses jobSize minJobs : Int64) :
    (plan files maxProcesses jobSize minJobs).jobs =
      chunks ((atLeastOne jobSize).toNatClampNeg - 1) files := by
  unfold plan
  dsimp only
  split
  · rename_i h
    exact (List.isEmpty_iff.mp h).symm
  · rfl

/-- The batches of a schedule together are the files of the job. -/
theorem flatten_jobs_plan (files : List Bytes) (maxProcesses jobSize minJobs : Int64) :
    (plan files maxProcesses jobSize minJobs).jobs.flatten = files := by
  rw [jobs_plan, flatten_chunks]

/-- No batch of a schedule is empty. -/
theorem length_pos_of_mem_jobs (h : job ∈ (plan files maxProcesses jobSize minJobs).jobs) :
    0 < job.length := by
  rw [jobs_plan] at h
  exact (length_of_mem_chunks h).1

/-- The size of a batch fits in 63 bits, as the greatest size is a 64-bit integer. -/
theorem length_lt_of_mem_jobs (h : job ∈ (plan files maxProcesses jobSize minJobs).jobs) :
    job.length < 2 ^ 63 := by
  rw [jobs_plan] at h
  have hle := (length_of_mem_chunks h).2
  have hlt := (atLeastOne jobSize).toNatClampNeg_lt
  omega

/-- There are no more batches than files. -/
theorem length_jobs_le (files : List Bytes) (maxProcesses jobSize minJobs : Int64) :
    (plan files maxProcesses jobSize minJobs).jobs.length ≤ files.length := by
  have hsum := List.card_nsmul_le_sum
    ((plan files maxProcesses jobSize minJobs).jobs.map List.length) 1 (by
      rintro _ hn
      obtain ⟨job, hjob, rfl⟩ := List.mem_map.mp hn
      exact length_pos_of_mem_jobs hjob)
  rw [← List.length_flatten, flatten_jobs_plan, List.length_map] at hsum
  simpa using hsum

end Plan

end LintPool.Schedule
