import LintPool.Diagnostic

/-!
# Results and reports

A result sums up the analysis of some files: the diagnostics, how many files were analysed, how many
of them failed, and whether any of them has properties whose types could be inferred from a
constructor. The report of a job is the merge of the results of its batches.

## Main definitions

* `LintPool.Result` : a result, and a report.
* `LintPool.Result.merge` : one result after another.
* `LintPool.Result.fileErrors`, `LintPool.Result.otherErrors` : the findings in order of file and
  line, and the failures in order of arrival.
-/

namespace LintPool

/-- What the analysis of some files came to. Counts are 64-bit and wrap around. -/
structure Result where
  errors : List Diagnostic := []
  /-- The number of files analysed. -/
  files : Int64 := 0
  /-- The number of files or processes that failed. -/
  internal : Int64 := 0
  /-- Whether property types could be inferred from a constructor. -/
  infer : Bool := false
  deriving DecidableEq

/-- The report of a job has the shape of a result. -/
abbrev Report := Result

namespace Result

/-- The terminal result of a worker whose connection failed. -/
def ofFailure (cause : Bytes) : Result where
  errors := [.failure cause]
  internal := 1

/-- Two results as one, the diagnostics of the second after those of the first. -/
def merge (r s : Result) : Result where
  errors := r.errors ++ s.errors
  files := r.files + s.files
  internal := r.internal + s.internal
  infer := r.infer || s.infer

/-- The order of findings: by file, byte by byte, and then by line. -/
def findingLe (a b : Diagnostic) : Bool :=
  if a.file = b.file then a.lineKey ≤ b.lineKey else Bytes.le a.file b.file

/-- The findings, by file and line; those of one line keep their order. -/
def fileErrors (r : Result) : List Diagnostic :=
  (r.errors.filter (·.isFileSpecific)).mergeSort findingLe

/-- The failures, in order of arrival. -/
def otherErrors (r : Result) : List Diagnostic := r.errors.filter (!·.isFileSpecific)

/-- Whether there is any finding. -/
def hasFindings (r : Result) : Bool := r.errors.any (·.isFileSpecific)

end Result

end LintPool
