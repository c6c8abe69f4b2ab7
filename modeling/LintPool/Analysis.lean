import LintPool.Report

/-!
# Analysing a batch of files

An analyzer looks at one file at a time. It finds diagnostics, or fails, or breaks down; whichever
it does, the other files of the batch are not affected. What it makes of a file may depend on what
it remembers of the files before. The analyzers of the program remember one thing only, which is
whether the job has been cancelled: they are told so, and they may themselves cancel the job.

## Main definitions

* `LintPool.Outcome` : what came of one file.
* `LintPool.Examiner` : an analyzer with a memory.
* `LintPool.Examiner.analyseBatch` : the result of files that it looks at one after another.
* `LintPool.Examiner.calls` : the calls that are made for files.
* `LintPool.Analyzer` : an analyzer.
* `LintPool.analyseBatch` : the result of a batch.
-/

namespace LintPool

/-- What came of the analysis of one file. -/
inductive Outcome where
  | done (diagnostics : List Diagnostic) (infer : Bool)
  | failed (cause : Bytes)
  /-- The analyzer broke down in the middle of the file. -/
  | crashed (reason : Bytes)
  deriving DecidableEq

/-- One visit of an analyzer to a file. -/
structure Visit where
  outcome : Outcome
  /-- Whether the analyzer cancelled the job. -/
  cancels : Bool := false

/-- An analyzer: told whether the job has been cancelled, it visits a file. -/
abbrev Analyzer := (cancelled : Bool) → (file : Bytes) → Visit

/-- The result of a single file. -/
def Outcome.result (file : Bytes) : Outcome → Result
  | .done diagnostics infer => { errors := diagnostics, files := 1, infer }
  | .failed cause => { errors := [.internalError file cause], files := 1, internal := 1 }
  | .crashed reason =>
    { errors := [.internalError file (utf8 "panic: " ++ reason)], files := 1, internal := 1 }

/-! ## Analyzers with a memory -/

/-- An analyzer with a memory: from what it remembers and a file to what came of the file and what
it remembers then. -/
abbrev Examiner (σ : Type) := (memory : σ) → (file : Bytes) → Outcome × σ

namespace Examiner

variable {σ : Type}

/-- Looks at one more file: from the result so far and what is remembered to both of them then. -/
def visit (x : Examiner σ) (p : Result × σ) (file : Bytes) : Result × σ :=
  let (outcome, memory) := x p.2 file
  (p.1.merge (outcome.result file), memory)

/-- Looks at files one after another. -/
def analyseBatch (x : Examiner σ) (memory : σ) (files : List Bytes) : Result × σ :=
  files.foldl x.visit ({}, memory)

/-- The same analyzer, which also keeps a record of its calls and of what came of them. -/
def recording (x : Examiner σ) : Examiner (σ × List (Bytes × Outcome)) := fun memory file =>
  let (outcome, next) := x memory.1 file
  (outcome, next, memory.2 ++ [(file, outcome)])

/-- The calls that are made for files, in order, and what came of each. -/
def calls (x : Examiner σ) (memory : σ) (files : List Bytes) : List (Bytes × Outcome) :=
  (x.recording.analyseBatch (memory, []) files).2.2

end Examiner

/-! ## Batches -/

/-- An analyzer as one that remembers whether the job has been cancelled. -/
def Analyzer.examiner (analyzer : Analyzer) : Examiner Bool := fun cancelled file =>
  let visit := analyzer cancelled file
  (visit.outcome, cancelled || visit.cancels)

/-- The result of a batch so far, and whether the job has been cancelled. -/
structure Progressed where
  result : Result := {}
  cancelled : Bool := false

/-- Analyses the files of a batch one after another, in a job that may have been cancelled. -/
def analyseBatch (analyzer : Analyzer) (cancelled : Bool) (files : List Bytes) : Progressed :=
  let p := analyzer.examiner.analyseBatch cancelled files
  { result := p.1, cancelled := p.2 }

end LintPool
