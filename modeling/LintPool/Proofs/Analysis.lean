import LintPool.Analysis
import LintPool.Proofs.Report

/-!
# The result of a batch

An analyzer that never cancels the job is told of no cancellation either. The result of a batch is
then the merge of the results of its files, each of which depends on the file alone. The same holds
of an analyzer that may cancel the job but makes the same of a file in a job that was cancelled.

## Main definitions

* `LintPool.Progressed.visit` : a batch after one more file.
* `LintPool.Analyzer.NeverCancels` : an analyzer does not cancel the job.
* `LintPool.Analyzer.Steady` : what an analyzer makes of a file does not depend on cancellation.
* `LintPool.Analyzer.resultOf` : the result of a single file in a job that is not cancelled.
* `LintPool.Analyzer.cancelsAt` : whether an analyzer cancels the job at a file.
* `LintPool.Analyzer.outcomes` : what an analyzer makes of the files of a batch.

## Main results

* `LintPool.Analyzer.NeverCancels.analyseBatch_eq` : what comes of a batch.
* `LintPool.Analyzer.Steady.analyseBatch_eq` : what comes of a batch that may be cancelled.
* `LintPool.Analyzer.result_analyseBatch` : the result of a batch, whatever the analyzer does.
* `LintPool.Analyzer.errors_analyseBatch` : the diagnostics of a batch.
-/

namespace LintPool

/-- A batch after one more file. -/
def Progressed.visit (analyzer : Analyzer) (p : Progressed) (file : Bytes) : Progressed :=
  let visit := analyzer p.cancelled file
  { result := p.result.merge (visit.outcome.result file)
    cancelled := p.cancelled || visit.cancels }

/-- A batch is analysed file by file. -/
lemma analyseBatch_eq_foldl (analyzer : Analyzer) (cancelled : Bool) (files : List Bytes) :
    analyseBatch analyzer cancelled files = files.foldl (Progressed.visit analyzer) { cancelled } :=
    by
  have hfold : ∀ p : Result × Bool,
      files.foldl (Progressed.visit analyzer) { result := p.1, cancelled := p.2 } =
        { result := (files.foldl analyzer.examiner.visit p).1
          cancelled := (files.foldl analyzer.examiner.visit p).2 } := by
    induction files with
    | nil =>
      intro p
      rfl
    | cons file files ih =>
      intro p
      exact ih (analyzer.examiner.visit p file)
  exact (hfold ({}, cancelled)).symm

namespace Analyzer

/-- Whether an analyzer never cancels the job. -/
def NeverCancels (analyzer : Analyzer) : Prop :=
  ∀ cancelled file, (analyzer cancelled file).cancels = false

/-- The result of a single file in a job that is not cancelled. -/
def resultOf (analyzer : Analyzer) (file : Bytes) : Result :=
  (analyzer false file).outcome.result file

variable {analyzer : Analyzer}

/-- A visit adds the result of its file. -/
lemma NeverCancels.visit_eq (hcalm : analyzer.NeverCancels) (r : Result) (file : Bytes) :
    Progressed.visit analyzer { result := r } file = { result := r.merge (analyzer.resultOf file) }
    := by
  rw [Progressed.visit, resultOf, hcalm]
  rfl

/-- **The result of a batch is the total of its files,** and the job goes on. -/
theorem NeverCancels.analyseBatch_eq (hcalm : analyzer.NeverCancels) (files : List Bytes) :
    analyseBatch analyzer false files = { result := .total (files.map analyzer.resultOf) } := by
  have hfold : ∀ r : Result, files.foldl (Progressed.visit analyzer) { result := r } =
      { result := r.merge (.total (files.map analyzer.resultOf)) } := by
    induction files with
    | nil =>
      intro r
      rw [List.foldl_nil, List.map_nil, Result.total_nil, Result.merge_empty]
    | cons file files ih =>
      intro r
      rw [List.foldl_cons, hcalm.visit_eq, ih, List.map_cons, Result.total_cons, Result.merge_assoc]
  rw [analyseBatch_eq_foldl, hfold, Result.empty_merge]

/-- Whether what an analyzer makes of a file does not depend on whether the job was cancelled. -/
def Steady (analyzer : Analyzer) : Prop :=
  ∀ cancelled file, (analyzer cancelled file).outcome = (analyzer false file).outcome

/-- Whether an analyzer cancels a job at a file, unless it was cancelled before. -/
def cancelsAt (analyzer : Analyzer) (file : Bytes) : Bool := (analyzer false file).cancels

/-- A visit adds the result of its file, and the job is cancelled if it was before or is now. -/
lemma Steady.visit_eq (hsteady : analyzer.Steady) (p : Progressed) (file : Bytes) :
    p.visit analyzer file =
      { result := p.result.merge (analyzer.resultOf file)
        cancelled := p.cancelled || analyzer.cancelsAt file } := by
  rw [Progressed.visit, resultOf, hsteady]
  cases hcancelled : p.cancelled with
  | true => simp
  | false => simp [cancelsAt]

/-- **The result of a batch is the total of its files,** whether or not the job is cancelled in the
middle of it. -/
theorem Steady.analyseBatch_eq (hsteady : analyzer.Steady) (cancelled : Bool) (files : List Bytes) :
    analyseBatch analyzer cancelled files =
      { result := .total (files.map analyzer.resultOf)
        cancelled := cancelled || files.any analyzer.cancelsAt } := by
  have hfold : ∀ p : Progressed, files.foldl (Progressed.visit analyzer) p =
      { result := p.result.merge (.total (files.map analyzer.resultOf))
        cancelled := p.cancelled || files.any analyzer.cancelsAt } := by
    induction files with
    | nil =>
      intro p
      simp
    | cons file files ih =>
      intro p
      rw [List.foldl_cons, hsteady.visit_eq, ih]
      simp [Result.merge_assoc, Bool.or_assoc]
  rw [analyseBatch_eq_foldl, hfold, Result.empty_merge]

/-- What an analyzer makes of the files of a batch, one after another, in a job that may have been
cancelled. -/
def outcomes (analyzer : Analyzer) (cancelled : Bool) : (files : List Bytes) → List Outcome
  | [] => []
  | file :: files =>
    let visit := analyzer cancelled file
    visit.outcome :: outcomes analyzer (cancelled || visit.cancels) files

/-- **The result of a batch is the total of its outcomes,** whatever the analyzer does. -/
theorem result_analyseBatch (analyzer : Analyzer) (cancelled : Bool) (files : List Bytes) :
    (analyseBatch analyzer cancelled files).result =
      .total ((files.zip (analyzer.outcomes cancelled files)).map fun v => v.2.result v.1) := by
  have hfold : ∀ p : Progressed, (files.foldl (Progressed.visit analyzer) p).result =
      p.result.merge (.total ((files.zip (analyzer.outcomes p.cancelled files)).map
        fun v => v.2.result v.1)) := by
    induction files with
    | nil =>
      intro p
      exact (Result.merge_empty _).symm
    | cons file files ih =>
      intro p
      rw [List.foldl_cons, ih, outcomes, List.zip_cons_cons, List.map_cons, Result.total_cons,
        ← Result.merge_assoc]
      rfl
  rw [analyseBatch_eq_foldl, hfold, Result.empty_merge]

/-- **The diagnostics of a batch are those of its outcomes,** one after another. -/
theorem errors_analyseBatch (cancelled : Bool) (files : List Bytes) :
    (analyseBatch analyzer cancelled files).result.errors =
      (files.zip (analyzer.outcomes cancelled files)).flatMap fun v => (v.2.result v.1).errors := by
  rw [result_analyseBatch, Result.errors_total, List.flatMap_map]

end Analyzer

end LintPool
