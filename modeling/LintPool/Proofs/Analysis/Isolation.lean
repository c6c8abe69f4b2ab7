import LintPool.Proofs.Analysis

/-!
# Files of a batch do not affect each other

An analyzer is called once for every file of a batch, in order. Whatever comes of the calls, the
result of the batch sums them up: the diagnostics of each file that could be analysed are all there,
and for each other file there is one internal error in their place that names it.

Nothing is assumed of the analyzer. It may return, fail or break down at any file, and what it does
may depend on the calls before: on two calls for one file it may do different things.

## Main definitions

* `LintPool.Outcome.hasFailed`, `LintPool.Outcome.infers`, `LintPool.Outcome.share` : whether a call
  failed, whether it brings the inference flag, and the diagnostics it brings.
* `LintPool.Result.SumsUp` : a result is what some calls come to.

## Main results

* `LintPool.Examiner.analyseBatch_recording` : a record does not affect the analysis.
* `LintPool.Examiner.calls_cons` : the calls for a list of files, from those for the rest of it.
* `LintPool.Examiner.analyseBatch_eq_total` : the result of a batch is the total of its calls.
* `LintPool.Result.sumsUp_total` : the total of calls sums them up.
* `LintPool.Examiner.analyseBatch_isolates` : every batch is summed up by its result.
-/

namespace LintPool

/-! ## What a call brings -/

namespace Outcome

/-- Whether an analysis failed or broke down. -/
def hasFailed : Outcome → Bool
  | .done .. => false
  | .failed _ => true
  | .crashed _ => true

/-- Whether an analysis was done and found types to infer. -/
def infers : Outcome → Bool
  | .done _ infer => infer
  | .failed _ => false
  | .crashed _ => false

/-- The diagnostics due for a file: all that were found in it, or a single internal error. -/
def share (file : Bytes) : Outcome → List Diagnostic
  | .done diagnostics _ => diagnostics
  | .failed cause => [.internalError file cause]
  | .crashed reason => [.internalError file (utf8 "panic: " ++ reason)]

variable {outcome : Outcome}

/-- A file that could not be analysed has one diagnostic, which names it but is no finding in it. -/
lemma share_of_hasFailed (file : Bytes) (h : outcome.hasFailed = true) :
    ∃ d, outcome.share file = [d] ∧ d.file = file ∧ d.isFileSpecific = false := by
  cases outcome with
  | done => cases h
  | failed cause => exact ⟨_, rfl, rfl, rfl⟩
  | crashed reason => exact ⟨_, rfl, rfl, rfl⟩

/-- The result of a single file. -/
lemma result_eq (file : Bytes) (outcome : Outcome) :
    outcome.result file =
      { errors := outcome.share file, files := 1, internal := if outcome.hasFailed then 1 else 0
        infer := outcome.infers } := by
  cases outcome <;> rfl

end Outcome

/-- A result is what calls of an analyzer come to: it counts them and those that failed, holds the
diagnostics due for each, in order, and has the inference flag if one of them brings it. -/
structure Result.SumsUp (calls : List (Bytes × Outcome)) (r : Result) : Prop where
  files_eq : r.files = Int64.ofNat calls.length
  internal_eq : r.internal = Int64.ofNat (calls.countP fun call => call.2.hasFailed)
  internal_le : (calls.countP fun call => call.2.hasFailed) ≤ calls.length
  errors_eq : r.errors = calls.flatMap fun call => call.2.share call.1
  /-- A call that failed brings one diagnostic, which names the file and is no finding in it. -/
  failed : ∀ call ∈ calls, call.2.hasFailed = true →
    ∃ d, call.2.share call.1 = [d] ∧ d.file = call.1 ∧ d.isFileSpecific = false
  infer_eq : r.infer = calls.any fun call => call.2.infers

/-- The counts of a total of calls. -/
lemma Result.counts_total (calls : List (Bytes × Outcome)) :
    (total (calls.map fun call => call.2.result call.1)).files = Int64.ofNat calls.length ∧
      (total (calls.map fun call => call.2.result call.1)).internal =
        Int64.ofNat (calls.countP fun call => call.2.hasFailed) := by
  induction calls with
  | nil => exact ⟨rfl, rfl⟩
  | cons call calls ih =>
    rw [List.map_cons, total_cons, merge, ih.1, ih.2, Outcome.result_eq, List.length_cons,
      List.countP_cons]
    refine ⟨?_, ?_⟩
    · rw [Int64.ofNat_add, Int64.add_comm]
      rfl
    · by_cases hfailed : call.2.hasFailed
      · simp [hfailed, Int64.add_comm]
      · simp [hfailed]

/-- **The total of calls sums them up.** -/
theorem Result.sumsUp_total (calls : List (Bytes × Outcome)) :
    (total (calls.map fun call => call.2.result call.1)).SumsUp calls where
  files_eq := (counts_total calls).1
  internal_eq := (counts_total calls).2
  internal_le := List.countP_le_length
  errors_eq := by
    rw [errors_total, List.flatMap_map]
    simp [Outcome.result_eq]
  failed call _ hfailed := Outcome.share_of_hasFailed call.1 hfailed
  infer_eq := by
    rw [infer_total, List.any_map]
    simp [Outcome.result_eq, Function.comp_def]

/-! ## The calls of a batch -/

namespace Examiner

variable {σ : Type} {x : Examiner σ}

/-- A visit adds its call to the record. -/
lemma visit_recording (r : Result) (memory : σ) (log : List (Bytes × Outcome)) (file : Bytes) :
    x.recording.visit (r, memory, log) file =
      (r.merge ((x memory file).1.result file), (x memory file).2,
        log ++ [(file, (x memory file).1)]) := rfl

/-- What was recorded before stays in front of the record. -/
lemma foldl_recording (files : List Bytes) (r : Result) (memory : σ)
    (log : List (Bytes × Outcome)) :
    (files.foldl x.recording.visit (r, memory, log)).2.2 = log ++ x.calls memory files := by
  have hlog : ∀ (r : Result) (memory : σ) (log : List (Bytes × Outcome)),
      (files.foldl x.recording.visit (r, memory, log)).2.2 =
        log ++ (files.foldl x.recording.visit ({}, memory, [])).2.2 := by
    induction files with
    | nil =>
      intro r memory log
      exact (List.append_nil log).symm
    | cons file files ih =>
      intro r memory log
      rw [List.foldl_cons, List.foldl_cons, visit_recording, visit_recording, ih _ _ (log ++ _),
        ih _ _ ([] ++ _)]
      simp
  exact hlog r memory log

/-- **A record does not affect the analysis**, which adds its calls to the record. -/
theorem analyseBatch_recording (memory : σ) (log : List (Bytes × Outcome)) (files : List Bytes) :
    x.recording.analyseBatch (memory, log) files =
      ((x.analyseBatch memory files).1, (x.analyseBatch memory files).2,
        log ++ x.calls memory files) := by
  have hfold : ∀ (r : Result) (memory : σ) (log : List (Bytes × Outcome)),
      files.foldl x.visit (r, memory) =
        ((files.foldl x.recording.visit (r, memory, log)).1,
          (files.foldl x.recording.visit (r, memory, log)).2.1) := by
    induction files with
    | nil =>
      intro r memory log
      rfl
    | cons file files ih =>
      intro r memory log
      exact ih _ _ _
  rw [← foldl_recording files {} memory log, analyseBatch, analyseBatch, hfold {} memory log]

/-- The first file is called for first, and the other calls follow with what is remembered then. -/
lemma calls_cons (memory : σ) (file : Bytes) (files : List Bytes) :
    x.calls memory (file :: files) = (file, (x memory file).1) :: x.calls (x memory file).2 files :=
  foldl_recording files _ (x memory file).2 [(file, (x memory file).1)]

/-- **Every file is called for once**, in order. -/
theorem map_fst_calls (memory : σ) (files : List Bytes) : (x.calls memory files).map (·.1) = files
    := by
  induction files generalizing memory with
  | nil => rfl
  | cons file files ih => rw [calls_cons, List.map_cons, ih]

/-- **The result of a batch is the total of its calls.** -/
theorem analyseBatch_eq_total (memory : σ) (files : List Bytes) :
    (x.analyseBatch memory files).1 =
      .total ((x.calls memory files).map fun call => call.2.result call.1) := by
  have hfold : ∀ (r : Result) (memory : σ), (files.foldl x.visit (r, memory)).1 =
      r.merge (.total ((x.calls memory files).map fun call => call.2.result call.1)) := by
    induction files with
    | nil =>
      intro r memory
      exact (Result.merge_empty r).symm
    | cons file files ih =>
      intro r memory
      rw [List.foldl_cons, visit]
      dsimp only
      rw [ih, calls_cons, List.map_cons, Result.total_cons, Result.merge_assoc]
  rw [analyseBatch, hfold, Result.empty_merge]

/-- **Files of a batch do not affect each other**: the analyzer is called once for every file, in
order, and the result sums up what came of the calls. The batches of a job are the case of an
analyzer that remembers whether the job has been cancelled. -/
theorem analyseBatch_isolates (x : Examiner σ) (memory : σ) (files : List Bytes) :
    (x.calls memory files).map (·.1) = files ∧
      (x.analyseBatch memory files).1.SumsUp (x.calls memory files) := by
  refine ⟨map_fst_calls memory files, ?_⟩
  rw [analyseBatch_eq_total]
  exact Result.sumsUp_total (x.calls memory files)

end Examiner

/-- An analyzer whose calls are on record makes the same of a batch. -/
lemma Analyzer.analyseBatch_recording (analyzer : Analyzer) (cancelled : Bool)
    (log : List (Bytes × Outcome)) (files : List Bytes) :
    analyzer.examiner.recording.analyseBatch (cancelled, log) files =
      ((analyseBatch analyzer cancelled files).result,
        (analyseBatch analyzer cancelled files).cancelled,
        log ++ analyzer.examiner.calls cancelled files) :=
  Examiner.analyseBatch_recording cancelled log files

end LintPool
