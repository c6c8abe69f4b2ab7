import LintPool.Pool.Job
import LintPool.Proofs.Analysis.Isolation
import LintPool.Proofs.Schedule

/-!
# Jobs in the running process

A job in the running process whose analyzer never cancels it visits all its files in order. Its
report does not depend on how the files are cut into batches. A job that its analyzer cancels in the
middle of a batch still finishes this batch; its report is that of one big batch, which holds the
files of all batches up to there.

## Main definitions

* `LintPool.Pool.Job.after` : a job after one more batch.
* `LintPool.Pool.reached` : the batches that a job gets to.

## Main results

* `LintPool.Pool.analyseJobs_spec` : what a job comes to batch by batch.
* `LintPool.Pool.analyseHere_spec` : a whole job.
* `LintPool.Pool.analyseHere_eq_analyseBatch` : a whole job that may be cancelled is one big batch.
* `LintPool.Pool.examineJobs_batches` : what a job comes to, whatever the analyzer does and whenever
  the job is cancelled.
-/

namespace LintPool.Pool

/-! ## One more batch -/

/-- A job after one more batch, given what came of it and the calls that were made for it. -/
def Job.after (job : Job) (result : Result) (calls : List (Bytes × Outcome)) : Job :=
  { job with
    report := job.report.merge result
    events := job.events ++ [batchEvent result]
    calls := job.calls ++ calls }

section Step

variable {σ : Type} {x : Examiner σ} {stopped : σ → Bool} {memory : σ}

/-- A job that has not been cancelled goes on with the next batch. -/
lemma examineJobs_cons (h : stopped memory = false) (job : Job) (batch : List Bytes)
    (jobs : List (List Bytes)) :
    examineJobs x stopped memory job (batch :: jobs) =
      examineJobs x stopped (x.analyseBatch memory batch).2
        (job.after (x.analyseBatch memory batch).1 (x.calls memory batch)) jobs := by
  rw [examineJobs, if_neg (by simp [h]), Examiner.analyseBatch_recording]
  rfl

/-- A job that has been cancelled fails unless there is nothing left to do. -/
lemma examineJobs_stopped (x : Examiner σ) (h : stopped memory = true) (job : Job)
    (jobs : List (List Bytes)) :
    examineJobs x stopped memory job jobs =
      { job with
        cancelled := true
        error := if jobs.isEmpty then job.error else some .cancelled } := by
  cases jobs with
  | nil => rw [examineJobs, h, List.isEmpty_nil, if_pos rfl]
  | cons batch jobs => rw [examineJobs, if_pos h, List.isEmpty_cons, if_neg Bool.false_ne_true]

/-- **What a job comes to, whatever the analyzer does** and whenever the job is cancelled. It
reports and tells the results of the batches that it gets to, and fails if these are not all. -/
theorem examineJobs_batches (x : Examiner σ) (stopped : σ → Bool) (memory : σ) (job : Job)
    (jobs : List (List Bytes)) :
    ∃ n ≤ jobs.length, ∃ rs : List Result,
      List.Forall₂ (fun batch r => ∃ memory, r = (x.analyseBatch memory batch).1) (jobs.take n) rs ∧
      (examineJobs x stopped memory job jobs).report = job.report.merge (.total rs) ∧
      (examineJobs x stopped memory job jobs).events = job.events ++ rs.map batchEvent ∧
      (examineJobs x stopped memory job jobs).error =
        if n < jobs.length then some .cancelled else job.error := by
  induction jobs generalizing memory job with
  | nil =>
    exact ⟨0, Nat.le_refl 0, [], .nil, (Result.merge_empty _).symm, (List.append_nil _).symm, rfl⟩
  | cons batch jobs ih =>
    cases hstopped : stopped memory with
    | true =>
      rw [examineJobs_stopped x hstopped]
      refine ⟨0, Nat.zero_le _, [], .nil, (Result.merge_empty _).symm, (List.append_nil _).symm, ?_⟩
      exact (if_pos (Nat.zero_lt_succ jobs.length)).symm
    | false =>
      obtain ⟨n, hn, rs, hrs, hreport, hevents, herror⟩ := ih (x.analyseBatch memory batch).2
        (job.after (x.analyseBatch memory batch).1 (x.calls memory batch))
      rw [examineJobs_cons hstopped]
      refine ⟨n + 1, Nat.succ_le_succ hn, (x.analyseBatch memory batch).1 :: rs,
        .cons ⟨memory, rfl⟩ hrs, ?_, ?_, ?_⟩
      · rw [hreport, Job.after, Result.merge_assoc, Result.total_cons]
      · rw [hevents, Job.after, List.append_assoc]
        rfl
      · rw [herror, List.length_cons]
        simp only [Job.after, Nat.add_lt_add_iff_right]

end Step

/-- The same for an analyzer that remembers only whether the job has been cancelled. -/
lemma analyseJobs_cons (analyzer : Analyzer) (job : Job) (batch : List Bytes)
    (jobs : List (List Bytes)) :
    analyseJobs analyzer false job (batch :: jobs) =
      analyseJobs analyzer (analyseBatch analyzer false batch).cancelled
        (job.after (analyseBatch analyzer false batch).result
          (analyzer.examiner.calls false batch)) jobs :=
  examineJobs_cons rfl job batch jobs

/-- The files of one more batch are visited after those before. -/
@[simp] lemma Job.visited_after (job : Job) (result : Result) (analyzer : Analyzer)
    (batch : List Bytes) :
    (job.after result (analyzer.examiner.calls false batch)).visited = job.visited ++ batch := by
  rw [visited, after, List.map_append, Examiner.map_fst_calls, visited]

/-! ## Jobs that are not cancelled -/

/-- A job has visited some files, one after another, and neither failed nor been cancelled. -/
structure Job.Visited (job : Job) (analyzer : Analyzer) (files : List Bytes) : Prop where
  report : job.report = .total (files.map analyzer.resultOf)
  error : job.error = none
  visited : job.visited = files
  cancelled : job.cancelled = false

section InProcess

variable {analyzer : Analyzer}

/-- A job in the running process visits the files of all its batches. The induction is on the
batches, over the files visited before. -/
theorem analyseJobs_spec (hcalm : analyzer.NeverCancels) {job : Job} {files : List Bytes}
    (hjob : job.Visited analyzer files) (jobs : List (List Bytes)) :
    (analyseJobs analyzer false job jobs).Visited analyzer (files ++ jobs.flatten) := by
  induction jobs generalizing job files with
  | nil =>
    rw [analyseJobs, examineJobs, List.flatten_nil, List.append_nil]
    exact ⟨hjob.report, hjob.error, hjob.visited, rfl⟩
  | cons batch jobs ih =>
    rw [analyseJobs_cons, hcalm.analyseBatch_eq, List.flatten_cons, ← List.append_assoc]
    refine ih ⟨?_, hjob.error, ?_, hjob.cancelled⟩
    · rw [Job.after, hjob.report, List.map_append, Result.total_append]
    · rw [Job.visited_after, hjob.visited]

/-- **A job in the running process** visits all its files, whatever the size of a batch. -/
theorem analyseHere_spec (hcalm : analyzer.NeverCancels) (jobSize : Int64) (files : List Bytes) :
    (analyseHere jobSize analyzer false files).Visited analyzer files := by
  have hstart : ∀ events, Job.Visited { events } analyzer [] := fun _ => ⟨rfl, rfl, rfl, rfl⟩
  have hjobs := analyseJobs_spec hcalm
    (hstart [startEvent 0 (Schedule.plan files 1 jobSize 1).jobs files])
    (Schedule.plan files 1 jobSize 1).jobs
  rw [List.nil_append, Schedule.flatten_jobs_plan] at hjobs
  exact ⟨hjobs.report, hjobs.error, hjobs.visited, hjobs.cancelled⟩

end InProcess

/-! ## Jobs that are cancelled on the way -/

/-- The batches that a job gets to: those up to the first one with a file at which its analyzer
cancels it, or all of them if there is no such file. -/
def reached (analyzer : Analyzer) (jobs : List (List Bytes)) : List (List Bytes) :=
  jobs.take (jobs.findIdx (·.any analyzer.cancelsAt) + 1)

section Cancellation

variable {analyzer : Analyzer} {batch : List Bytes} {jobs : List (List Bytes)}

/-- A job gets no further than a batch in which it is cancelled. -/
lemma reached_of_cancels (h : batch.any analyzer.cancelsAt = true) (jobs : List (List Bytes)) :
    reached analyzer (batch :: jobs) = [batch] := by
  simp [reached, List.findIdx_cons, h]

/-- A job goes on after a batch in which it is not cancelled. -/
lemma reached_of_not_cancels (h : batch.any analyzer.cancelsAt = false)
    (jobs : List (List Bytes)) :
    reached analyzer (batch :: jobs) = batch :: reached analyzer jobs := by
  simp only [reached, List.findIdx_cons, h, cond_false, List.take_succ_cons]

/-- A job gets to all batches if it is not cancelled at any of their files. -/
lemma reached_eq_self (h : ∀ file ∈ jobs.flatten, analyzer.cancelsAt file = false) :
    reached analyzer jobs = jobs := by
  induction jobs with
  | nil => rfl
  | cons batch jobs ih =>
    rw [List.flatten_cons, List.forall_mem_append] at h
    rw [reached_of_not_cancels (List.any_eq_false.mpr fun file hfile => by simp [h.1 file hfile]),
      ih h.2]

/-- **What a job comes to that may be cancelled on the way.** The induction is on the batches: in
each the job either goes on, or finishes the batch and stops. -/
theorem analyseJobs_reached (hsteady : analyzer.Steady) (job : Job) (jobs : List (List Bytes)) :
    (analyseJobs analyzer false job jobs).report =
        job.report.merge (.total ((reached analyzer jobs).flatten.map analyzer.resultOf)) ∧
      (analyseJobs analyzer false job jobs).visited =
        job.visited ++ (reached analyzer jobs).flatten ∧
      (analyseJobs analyzer false job jobs).error =
        if (reached analyzer jobs).length < jobs.length then some .cancelled else job.error := by
  induction jobs generalizing job with
  | nil =>
    simp [analyseJobs, examineJobs, reached, Job.visited]
  | cons batch jobs ih =>
    rw [analyseJobs_cons, hsteady.analyseBatch_eq]
    simp only [Bool.false_or]
    cases hcancels : batch.any analyzer.cancelsAt with
    | true =>
      have hvisited := job.visited_after (.total (batch.map analyzer.resultOf)) analyzer batch
      rw [analyseJobs, examineJobs_stopped _ rfl, reached_of_cancels hcancels]
      refine ⟨?_, ?_, ?_⟩
      · rw [Job.after, List.flatten_singleton]
      · rw [List.flatten_singleton]
        exact hvisited
      · cases jobs with
        | nil => simp [Job.after]
        | cons next jobs => simp
    | false =>
      obtain ⟨hreport, hvisited, herror⟩ := ih
        (job.after (.total (batch.map analyzer.resultOf)) (analyzer.examiner.calls false batch))
      rw [hreport, hvisited, herror, reached_of_not_cancels hcancels]
      refine ⟨?_, ?_, ?_⟩
      · rw [Job.after, List.flatten_cons, List.map_append, Result.total_append,
          Result.merge_assoc]
      · rw [Job.visited_after, List.flatten_cons, List.append_assoc]
      · simp only [Job.after, List.length_cons, Nat.add_lt_add_iff_right]

/-- **A job in the running process is one big batch.** It visits the files of the batches that it
gets to, in order; its report is that of a single batch with these files; and it fails, because it
was cancelled, if and only if there are batches that it does not get to. If no file cancels it, its
report is that of all files as one batch, whatever the size of a batch is. -/
theorem analyseHere_eq_analyseBatch (hsteady : analyzer.Steady) (jobSize : Int64)
    (files : List Bytes) :
    (analyseHere jobSize analyzer false files).visited =
        (reached analyzer (Schedule.plan files 1 jobSize 1).jobs).flatten ∧
      (analyseHere jobSize analyzer false files).visited <+: files ∧
      (analyseHere jobSize analyzer false files).report =
        (analyseBatch analyzer false
          (reached analyzer (Schedule.plan files 1 jobSize 1).jobs).flatten).result ∧
      (analyseHere jobSize analyzer false files).error =
        (if (reached analyzer (Schedule.plan files 1 jobSize 1).jobs).length <
            (Schedule.plan files 1 jobSize 1).jobs.length then some .cancelled else none) ∧
      ((∀ file ∈ files, analyzer.cancelsAt file = false) →
        (analyseHere jobSize analyzer false files).report =
            (analyseBatch analyzer false files).result ∧
          (analyseHere jobSize analyzer false files).error = none) := by
  have hfiles := Schedule.flatten_jobs_plan files 1 jobSize 1
  generalize hjobs : (Schedule.plan files 1 jobSize 1).jobs = jobs at hfiles ⊢
  have hhere : (analyseHere jobSize analyzer false files).report =
        .total ((reached analyzer jobs).flatten.map analyzer.resultOf) ∧
      (analyseHere jobSize analyzer false files).visited = (reached analyzer jobs).flatten ∧
      (analyseHere jobSize analyzer false files).error =
        if (reached analyzer jobs).length < jobs.length then some .cancelled else none := by
    have hjob := analyseJobs_reached hsteady { events := [startEvent 0 jobs files] } jobs
    rw [Result.empty_merge] at hjob
    rw [analyseHere, examineHere, hjobs]
    exact hjob
  obtain ⟨hreport, hvisited, herror⟩ := hhere
  have hbatch : ∀ files, (analyseBatch analyzer false files).result =
      .total (files.map analyzer.resultOf) := fun files => by rw [hsteady.analyseBatch_eq]
  rw [hbatch, hbatch, hreport, hvisited, herror]
  refine ⟨rfl, ?_, rfl, rfl, fun hcalm => ?_⟩
  · rw [← hfiles]
    exact (List.take_prefix _ _).flatten
  · rw [reached_eq_self fun file hfile => hcalm file (hfiles ▸ hfile), hfiles]
    exact ⟨rfl, if_neg (Nat.lt_irrefl _)⟩

end Cancellation

/-- An analyzer that fails on one file and cancels the job at another. -/
def fitful : Analyzer := fun _ file =>
  { outcome := if file = utf8 "a" then .failed (utf8 "no") else .done [] true
    cancels := file = utf8 "b" }

/-- Cancelled at the second of three files in batches of one, a job reports on the first two. -/
theorem analyseHere_fitful :
    fitful.Steady ∧
      (analyseHere (-3) fitful false [utf8 "a", utf8 "b", utf8 "c"]).visited =
        [utf8 "a", utf8 "b"] ∧
      (analyseHere (-3) fitful false [utf8 "a", utf8 "b", utf8 "c"]).report =
        (analyseBatch fitful false [utf8 "a", utf8 "b"]).result ∧
      (analyseHere (-3) fitful false [utf8 "a", utf8 "b", utf8 "c"]).error = some .cancelled := by
  have hsteady : fitful.Steady := fun _ _ => rfl
  have hreached : reached fitful
      (Schedule.plan [utf8 "a", utf8 "b", utf8 "c"] 1 (-3) 1).jobs = [[utf8 "a"], [utf8 "b"]] := by
    cbv
  have hlength : (Schedule.plan [utf8 "a", utf8 "b", utf8 "c"] 1 (-3) 1).jobs.length = 3 := by cbv
  have hjob := analyseHere_eq_analyseBatch hsteady (-3) [utf8 "a", utf8 "b", utf8 "c"]
  rw [hreached, hlength] at hjob
  exact ⟨hsteady, hjob.1, hjob.2.2.1, hjob.2.2.2.1⟩

end LintPool.Pool
