import LintPool.Proofs.Schedule

/-!
# Schedules in 64-bit arithmetic

The batches of a job can be cut off in a loop over 64-bit indices: one that starts at `start` ends
before `start + size`, and that is where the next one starts. Settings may be as large as a 64-bit
integer can be, so both this sum and the one behind the number of processes can be near the limit.

The indices never wrap around. The first batch starts at zero. A later one starts at an index that
is not less than the size and less than the number of files, so the size is less than this number,
and the next index is less than twice as much. The sum behind the number of processes can wrap
around, but only if each process is to have more batches than there are. Then the quotient is not
positive, and the one process that is left is the right number.

## Main definitions

* `LintPool.Schedule.slice?` : the part of a list between two indices.
* `LintPool.Schedule.Cuts` : the batches with which a loop over indices ends.
* `LintPool.Schedule.Exact` : a schedule is what its settings ask for in exact arithmetic.

## Main results

* `LintPool.Schedule.cuts_chunks` : the loop ends and cuts the list into its parts.
* `LintPool.Schedule.toInt_processesFor` : the number of processes is exact.
* `LintPool.Schedule.plan_exact` : every schedule is exact.
-/

namespace LintPool.Schedule

/-! ## Exact values -/

section Words

variable {a b : Int64}

/-- A sum that is in range is exact. -/
lemma toInt_add_of_range (hlow : -2 ^ 63 ≤ a.toInt + b.toInt) (hhigh : a.toInt + b.toInt < 2 ^ 63) :
    (a + b).toInt = a.toInt + b.toInt := by
  rw [Int64.toInt_add]
  apply Int.bmod_eq_of_le
  · omega
  · omega

/-- The greater of two words. -/
lemma toInt_max (a b : Int64) : (max a b).toInt = max a.toInt b.toInt := by
  by_cases h : a ≤ b
  · rw [show max a b = b from if_pos h, max_eq_right (Int64.le_iff_toInt_le.mp h)]
  · have hba : b.toInt ≤ a.toInt := by
      rw [Int64.le_iff_toInt_le] at h
      omega
    rw [show max a b = a from if_neg h, max_eq_left hba]

/-- The lesser of two words. -/
lemma toInt_min (a b : Int64) : (min a b).toInt = min a.toInt b.toInt := by
  by_cases h : a ≤ b
  · rw [show min a b = a from if_pos h, min_eq_left (Int64.le_iff_toInt_le.mp h)]
  · have hba : b.toInt ≤ a.toInt := by
      rw [Int64.le_iff_toInt_le] at h
      omega
    rw [show min a b = b from if_neg h, min_eq_right hba]

/-- A setting counts as one if it is less. -/
lemma toInt_atLeastOne (n : Int64) : (atLeastOne n).toInt = max 1 n.toInt := by
  have hone : (1 : Int64).toInt = 1 := rfl
  unfold atLeastOne
  split
  · rename_i h
    rw [Int64.lt_iff_toInt_lt, hone] at h
    rw [hone]
    omega
  · rename_i h
    rw [Int64.lt_iff_toInt_lt, hone] at h
    omega

end Words

/-! ## The loop -/

/-- The part of a list from one index up to another. None if they are out of order or out of range.
-/
def slice? (files : List Bytes) (low high : Int64) : Option (List Bytes) :=
  if 0 ≤ low ∧ low ≤ high ∧ high ≤ Int64.ofNat files.length then
    some ((files.drop low.toNatClampNeg).take (high.toNatClampNeg - low.toNatClampNeg))
  else none

/-- From an index on, a loop over 64-bit indices whose sum wraps around ends with some batches, and
no index is out of range. -/
inductive Cuts (files : List Bytes) (size : Int64) : Int64 → List (List Bytes) → Prop
  | done {start : Int64} : ¬ start < Int64.ofNat files.length → Cuts files size start []
  | turn {start : Int64} {job : List Bytes} {jobs : List (List Bytes)} :
      start < Int64.ofNat files.length →
      slice? files start (min (start + size) (Int64.ofNat files.length)) = some job →
      Cuts files size (start + size) jobs → Cuts files size start (job :: jobs)

section Loop

variable {files : List Bytes} {size start : Int64}

/-- A part between indices that are in order and in range. -/
lemma slice?_eq {low high : Int64} {k n : Nat} (hlength : files.length < 2 ^ 63)
    (hlow : low.toInt = k) (hhigh : high.toInt = n) (hkn : k ≤ n) (hn : n ≤ files.length) :
    slice? files low high = some ((files.drop k).take (n - k)) := by
  have hclamp : low.toNatClampNeg = k ∧ high.toNatClampNeg = n := by
    rw [← Int64.toNat_toInt, ← Int64.toNat_toInt]
    omega
  unfold slice?
  rw [if_pos, hclamp.1, hclamp.2]
  rw [Int64.le_iff_toInt_le, Int64.le_iff_toInt_le, Int64.le_iff_toInt_le,
    Int64.toInt_ofNat_of_lt hlength, hlow, hhigh]
  refine ⟨?_, ?_, ?_⟩
  · show (0 : Int) ≤ k
    omega
  · omega
  · omega

/-- The loop does not end in two ways. -/
lemma Cuts.unique {jobs jobs' : List (List Bytes)} (h : Cuts files size start jobs)
    (h' : Cuts files size start jobs') : jobs = jobs' := by
  induction h generalizing jobs' with
  | done hend =>
    cases h' with
    | done => rfl
    | turn hstart => exact absurd hstart hend
  | turn hstart hjob _ ih =>
    cases h' with
    | done hend => exact absurd hstart hend
    | turn _ hjob' hrest =>
      rw [ih hrest, Option.some.inj (hjob.symm.trans hjob')]

/-- An index is before the end of the list if its exact value is. -/
lemma lt_length_iff {k : Nat} (hlength : files.length < 2 ^ 63) (hstart : start.toInt = k) :
    start < Int64.ofNat files.length ↔ k < files.length := by
  rw [Int64.lt_iff_toInt_lt, Int64.toInt_ofNat_of_lt hlength, hstart]
  omega

/-- Before the end of the list, one turn of the loop cuts off one batch. The next index does not
wrap around: if this is not the first turn, then the size is less than the length of the list. -/
lemma slice?_turn {k : Nat} (hlength : files.length ≤ 2 ^ 62) (hsize : 1 ≤ size.toInt)
    (hstart : start.toInt = k) (hk : k < files.length) (hsmall : k = 0 ∨ size.toInt ≤ k) :
    (start + size).toInt = k + size.toInt ∧
      slice? files start (min (start + size) (Int64.ofNat files.length)) =
        some ((files.drop k).take size.toInt.toNat) := by
  have hword := size.toInt_lt
  have hfiles : files.length < 2 ^ 63 := by omega
  have hnext : (start + size).toInt = k + size.toInt := by
    rw [toInt_add_of_range (by omega) (by omega), hstart]
  refine ⟨hnext, ?_⟩
  have hend : (min (start + size) (Int64.ofNat files.length)).toInt =
      (min (k + size.toInt.toNat) files.length : Nat) := by
    rw [toInt_min, hnext, Int64.toInt_ofNat_of_lt hfiles]
    omega
  have htake : (files.drop k).take (min (k + size.toInt.toNat) files.length - k) =
      (files.drop k).take size.toInt.toNat := by
    rw [← List.take_eq_take_iff.mpr]
    rw [List.length_drop]
    omega
  rw [slice?_eq hfiles hstart hend (by omega) (by omega), htake]

/-- **The loop ends, and cuts the list into its parts.**

**Proof sketch.** By induction on how many files are left. Each turn cuts off as many as make a
part, and moves the index on by the size, which is positive. -/
theorem cuts_chunks (hlength : files.length ≤ 2 ^ 62) (hsize : 1 ≤ size.toInt) {k : Nat}
    (hstart : start.toInt = k) (hsmall : k = 0 ∨ size.toInt ≤ k) :
    Cuts files size start (chunks (size.toInt.toNat - 1) (files.drop k)) := by
  have hfiles : files.length < 2 ^ 63 := by omega
  induction hleft : files.length - k using Nat.strong_induction_on generalizing start k with
  | _ left ih =>
    by_cases hk : k < files.length
    · obtain ⟨hnext, hslice⟩ := slice?_turn hlength hsize hstart hk hsmall
      have hnext : (start + size).toInt = (k + size.toInt.toNat : Nat) := by omega
      have hrest := ih _ (by omega) hnext (by omega) rfl
      -- what is left is not empty, so the first part is there
      obtain ⟨file, rest, hdrop⟩ : ∃ file rest, files.drop k = file :: rest := by
        apply List.exists_cons_of_ne_nil
        intro hnil
        have := List.drop_eq_nil_iff.mp hnil
        omega
      have hturn : size.toInt.toNat = size.toInt.toNat - 1 + 1 := by omega
      have hchunks : chunks (size.toInt.toNat - 1) (files.drop k) =
          (files.drop k).take size.toInt.toNat ::
            chunks (size.toInt.toNat - 1) (files.drop (k + size.toInt.toNat)) := by
        rw [← List.drop_drop, hdrop, chunks, hturn]
        simp
      rw [hchunks]
      exact .turn ((lt_length_iff hfiles hstart).mpr hk) hslice hrest
    · rw [List.drop_eq_nil_of_le (by omega), chunks]
      exact .done ((lt_length_iff hfiles hstart).not.mpr hk)

end Loop

/-! ## Parts -/

section Parts

variable {α : Type} {size : Nat} {xs chunk : List α}

/-- Only the last part of a list may be shorter than the others. -/
lemma length_of_mem_dropLast_chunks (h : chunk ∈ (chunks size xs).dropLast) :
    chunk.length = size + 1 := by
  fun_induction chunks size xs with
  | case1 => cases h
  | case2 x xs ih =>
    cases hrest : chunks size (xs.drop size) with
    | nil =>
      rw [hrest] at h
      cases h
    | cons next rest =>
      rw [hrest, List.dropLast_cons_cons, List.mem_cons] at h
      rcases h with rfl | h
      · -- a part follows this one, so there is enough for both
        have hlong : size < xs.length := by
          by_contra hshort
          rw [List.drop_eq_nil_of_le (by omega), chunks] at hrest
          cases hrest
        simp only [List.length_cons, List.length_take]
        omega
      · exact ih (hrest ▸ h)

end Parts

/-! ## The number of processes -/

section Processes

variable {jobs : Nat} {maxProcesses minJobs : Int64}

/-- The quotient of whole numbers, rounded up. -/
lemma ceil_div_eq {n p : Int} (hp : 1 ≤ p) : ⌈(n : ℚ) / (p : ℚ)⌉ = (n + p - 1) / p := by
  have hcast : ((p.toNat : ℕ) : ℚ) = (p : ℚ) := by
    rw [← Int.cast_natCast, Int.toNat_of_nonneg (by omega)]
  rw [← hcast, Rat.ceil_intCast_div_natCast, Int.toNat_of_nonneg (by omega)]
  have hlow := Int.emod_nonneg (-n) (show p ≠ 0 by omega)
  have hhigh := Int.emod_lt_of_pos (-n) (show 0 < p by omega)
  have hsum : n + p - 1 = p - 1 - -n % p + -(-n / p) * p := by
    have hn := Int.mul_ediv_add_emod (-n) p
    rw [Int.neg_mul, Int.mul_comm]
    omega
  have hzero : (p - 1 - -n % p) / p = 0 := Int.ediv_eq_zero_of_lt (by omega) (by omega)
  rw [hsum, Int.add_mul_ediv_right _ _ (by omega), hzero, Int.zero_add]

/-- The sum behind the number of processes, which may wrap around on the way and in the end. -/
lemma toInt_sum (hjobs : jobs ≤ 2 ^ 62) (minJobs : Int64) :
    (Int64.ofNat jobs + minJobs - 1).toInt = (jobs + minJobs.toInt - 1).bmod (2 ^ 64) := by
  have hone : (1 : Int64).toInt = 1 := rfl
  rw [Int64.toInt_sub, Int64.toInt_add, Int.bmod_sub_bmod, Int64.toInt_ofNat_of_lt (by omega), hone]

/-- The quotient behind the number of processes is exact if the sum does not wrap around. -/
lemma toInt_quotient (hjobs : jobs ≤ 2 ^ 62) (hmin : 1 ≤ minJobs.toInt)
    (hsmall : jobs + minJobs.toInt - 1 < 2 ^ 63) :
    ((Int64.ofNat jobs + minJobs - 1) / minJobs).toInt = (jobs + minJobs.toInt - 1) / minJobs.toInt
    := by
  have hsum : (Int64.ofNat jobs + minJobs - 1).toInt = jobs + minJobs.toInt - 1 := by
    rw [toInt_sum hjobs, Int.bmod_eq_of_le (by omega) (by omega)]
  have hpos := Int.ediv_nonneg (a := jobs + minJobs.toInt - 1) (b := minJobs.toInt) (by omega)
    (by omega)
  have hle := Int.ediv_le_self (a := jobs + minJobs.toInt - 1) minJobs.toInt (by omega)
  rw [Int64.toInt_div, hsum, Int.tdiv_eq_ediv_of_nonneg (by omega)]
  apply Int.bmod_eq_of_le
  · omega
  · omega

/-- The quotient behind the number of processes is not positive if the sum wraps around. -/
lemma toInt_quotient_nonpos (hjobs : jobs ≤ 2 ^ 62) (hmin : 1 ≤ minJobs.toInt)
    (hlarge : 2 ^ 63 ≤ jobs + minJobs.toInt - 1) :
    ((Int64.ofNat jobs + minJobs - 1) / minJobs).toInt ≤ 0 := by
  have hword := minJobs.toInt_lt
  obtain ⟨n, hn⟩ : ∃ n : Nat, (Int64.ofNat jobs + minJobs - 1).toInt = -n := by
    refine ⟨(2 ^ 64 - (jobs + minJobs.toInt - 1)).toNat, ?_⟩
    rw [toInt_sum hjobs, Int.bmod_def]
    omega
  have hrange := (Int64.ofNat jobs + minJobs - 1).le_toInt
  have hpos : 0 ≤ (n : Int) / minJobs.toInt := Int.ediv_nonneg (by omega) (by omega)
  have hle : (n : Int) / minJobs.toInt ≤ n := Int.ediv_le_self _ (by omega)
  rw [Int64.toInt_div, hn, Int.neg_tdiv, Int.tdiv_eq_ediv_of_nonneg (by omega),
    Int.bmod_eq_of_le (by omega) (by omega)]
  omega

/-- **The number of processes is exact**, whether or not the sum behind it wraps around.

**Proof sketch.** If it does, then each process is to have more batches than there are, so that one
process is enough. The quotient of the sum that wrapped around is not positive, and what is raised
to at least one is one. -/
theorem toInt_processesFor (hpos : 1 ≤ jobs) (hjobs : jobs ≤ 2 ^ 62) (hmin : 1 ≤ minJobs.toInt) :
    (processesFor (Int64.ofNat jobs) maxProcesses minJobs).toInt =
      max 1 (min maxProcesses.toInt ⌈(jobs : ℚ) / (minJobs.toInt : ℚ)⌉) := by
  have hone : (1 : Int64).toInt = 1 := rfl
  have hceil := ceil_div_eq (n := jobs) hmin
  rw [Int.cast_natCast] at hceil
  rw [processesFor, toInt_max, toInt_min, hone, hceil]
  by_cases hsmall : jobs + minJobs.toInt - 1 < 2 ^ 63
  · rw [toInt_quotient hjobs hmin hsmall]
  · have hquotient := toInt_quotient_nonpos hjobs hmin (by omega)
    -- in exact arithmetic, one process has room for all batches
    have hexact : (jobs + minJobs.toInt - 1) / minJobs.toInt = 1 := by
      have hsum : jobs + minJobs.toInt - 1 = (jobs - 1) + 1 * minJobs.toInt := by omega
      have hzero : ((jobs : Int) - 1) / minJobs.toInt = 0 :=
        Int.ediv_eq_zero_of_lt (by omega) (by omega)
      rw [hsum, Int.add_mul_ediv_right _ _ (by omega), hzero, Int.zero_add]
    omega

end Processes

/-! ## Schedules -/

/-- A schedule is what its settings ask for in exact arithmetic, each of them raised to at least
one. -/
structure Exact (files : List Bytes) (maxProcesses jobSize minJobs : Int64) (s : Schedule) : Prop
    where
  /-- The loop over 64-bit indices ends, with the batches of the schedule and no others. -/
  loop : ∀ jobs, Cuts files (atLeastOne jobSize) 0 jobs ↔ jobs = s.jobs
  flatten_jobs : s.jobs.flatten = files
  ne_nil : ∀ job ∈ s.jobs, job ≠ []
  length_le : ∀ job ∈ s.jobs, (job.length : ℤ) ≤ max 1 jobSize.toInt
  length_eq : ∀ job ∈ s.jobs.dropLast, (job.length : ℤ) = max 1 jobSize.toInt
  processes_eq : s.jobs ≠ [] → s.processes.toInt =
    max 1 (min (max 1 maxProcesses.toInt) ⌈(s.jobs.length : ℚ) / ((max 1 minJobs.toInt : ℤ) : ℚ)⌉)
  of_nil : files = [] → s.processes = 0 ∧ s.jobs = []

section Plan

variable {files : List Bytes} {maxProcesses jobSize minJobs : Int64}

/-- The number of processes of a schedule with batches. -/
lemma processes_plan (h : (plan files maxProcesses jobSize minJobs).jobs ≠ []) :
    (plan files maxProcesses jobSize minJobs).processes =
      processesFor (Int64.ofNat (plan files maxProcesses jobSize minJobs).jobs.length)
        (atLeastOne maxProcesses) (atLeastOne minJobs) := by
  rw [jobs_plan] at h ⊢
  unfold plan
  dsimp only
  rw [if_neg]
  rwa [List.isEmpty_iff]

/-- Without files there is nothing to do. -/
lemma plan_nil (maxProcesses jobSize minJobs : Int64) :
    (plan [] maxProcesses jobSize minJobs).processes = 0 ∧
      (plan [] maxProcesses jobSize minJobs).jobs = [] := by
  simp [plan, chunks]

/-- **Every schedule is exact**, also for settings that are not positive or near the limits. -/
theorem plan_exact (hfiles : files.length ≤ 2 ^ 62) (maxProcesses jobSize minJobs : Int64) :
    (plan files maxProcesses jobSize minJobs).Exact files maxProcesses jobSize minJobs := by
  have hsize := toInt_atLeastOne jobSize
  have hturn : (atLeastOne jobSize).toNatClampNeg - 1 + 1 = (max 1 jobSize.toInt).toNat := by
    rw [← Int64.toNat_toInt, hsize]
    omega
  have hcuts : Cuts files (atLeastOne jobSize) 0 (plan files maxProcesses jobSize minJobs).jobs := by
    rw [jobs_plan, ← Int64.toNat_toInt]
    exact cuts_chunks hfiles (by omega) (k := 0) rfl (.inl rfl)
  refine ⟨fun jobs => ⟨fun h => h.unique hcuts, fun h => h ▸ hcuts⟩, flatten_jobs_plan .., ?_, ?_,
    ?_, ?_, ?_⟩
  · intro job hjob
    exact List.ne_nil_of_length_pos (length_pos_of_mem_jobs hjob)
  · intro job hjob
    rw [jobs_plan] at hjob
    have hle := (length_of_mem_chunks hjob).2
    omega
  · intro job hjob
    rw [jobs_plan] at hjob
    have heq := length_of_mem_dropLast_chunks hjob
    omega
  · intro hjobs
    have hle := length_jobs_le files maxProcesses jobSize minJobs
    have hmin := toInt_atLeastOne minJobs
    rw [processes_plan hjobs, toInt_processesFor (List.length_pos_iff.mpr hjobs) (by omega)
      (by omega), hmin, toInt_atLeastOne]
  · rintro rfl
    exact plan_nil maxProcesses jobSize minJobs

/-- A schedule whose sum wraps around: every process is to have as many batches as a word can hold,
and there is no limit to speak of. -/
theorem plan_exact_of_wrapping_sum :
    [utf8 "a", utf8 "b", utf8 "c"].length ≤ 2 ^ 62 ∧
      (Int64.ofNat 2 + Int64.maxValue - 1).toInt < 0 ∧
      (plan [utf8 "a", utf8 "b", utf8 "c"] Int64.maxValue 2 Int64.maxValue).Exact
        [utf8 "a", utf8 "b", utf8 "c"] Int64.maxValue 2 Int64.maxValue :=
  ⟨by decide, by decide, plan_exact (by decide) Int64.maxValue 2 Int64.maxValue⟩

end Plan

end LintPool.Schedule
