import LintPool.Duration
import LintPool.Pool.Basic

/-!
# Summaries and verdicts

A summary says what a whole run came to. Its verdict decides the exit code of the program.

## Main definitions

* `LintPool.Summary` : what a run came to.
* `LintPool.Verdict` : how it ended.
* `LintPool.Verdict.code` : the exit code.
-/

namespace LintPool

/-- What a run came to. -/
structure Summary where
  /-- The number of files found. -/
  files : Nat := 0
  /-- The number of files whose outcome was known from earlier runs. -/
  cached : Int64 := 0
  /-- The size of all files together. -/
  bytes : UInt64 := 0
  report : Report := {}
  /-- Why the job ended early, if it did. -/
  jobError : Option Pool.JobError := none
  elapsed : Duration := 0

/-- How a run ended. -/
inductive Verdict where
  | clean
  /-- There are findings, and nothing failed. -/
  | findings
  /-- Some files or processes failed. -/
  | internalErrors
  /-- The job as a whole failed. -/
  | failed (cause : Bytes)
  deriving DecidableEq

namespace Verdict

/-- The verdict on a report. The failure of the job outweighs internal errors, and these outweigh
findings. -/
def ofReport (report : Report) (jobError : Option Bytes) : Verdict :=
  match jobError with
  | some cause => .failed cause
  | none =>
    if 0 < report.internal then .internalErrors
    else if report.hasFindings then .findings
    else .clean

/-- The exit code. -/
def code : Verdict → UInt32
  | .clean => 0
  | .findings => 1
  | .internalErrors => 2
  | .failed _ => 2

/-- What is told on the error stream, if anything is. -/
def complaint? : Verdict → Option Bytes
  | .failed cause => some (utf8 "analysis failed: " ++ cause)
  | _ => none

/-- The message of a verdict that is not clean. -/
def message? (v : Verdict) : Option Bytes :=
  if v = .clean then none
  else v.complaint? <|> some (utf8 "exit status " ++ Bytes.natural v.code.toNat)

end Verdict

/-- The verdict on a run. -/
def Summary.verdict (s : Summary) : Verdict :=
  .ofReport s.report (s.jobError.map Pool.JobError.message)

end LintPool
