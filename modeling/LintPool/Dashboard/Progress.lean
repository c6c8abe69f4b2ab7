import LintPool.Event

/-!
# The progress of a job

The dashboard shows counters that follow the events of a job.

## Main definitions

* `LintPool.Progress` : the counters.
* `LintPool.Progress.after` : the counters after an event.
-/

namespace LintPool

/-- How far a job is. -/
inductive Progress.Status where
  | idle
  | running
  | finished
  | failed
  deriving DecidableEq

/-- The name of a status. -/
def Progress.Status.name : Progress.Status → Bytes
  | .idle => utf8 "idle"
  | .running => utf8 "running"
  | .finished => utf8 "finished"
  | .failed => utf8 "failed"

/-- The counters of the current job. -/
structure Progress where
  jobId : Bytes := []
  status : Progress.Status := .idle
  processes : Int64 := 0
  batches : Int64 := 0
  batchesDone : Int64 := 0
  files : Int64 := 0
  filesDone : Int64 := 0
  diagnostics : Int64 := 0
  internalErrors : Int64 := 0
  workersConnected : Int64 := 0
  workersLost : Int64 := 0
  error : Bytes := []
  startedAt : Option Timestamp := none
  finishedAt : Option Timestamp := none
  deriving DecidableEq

namespace Progress

/-- The counters after an event. The start of a job resets them, and its end brings the totals of
the whole report. An error stays until the next job. -/
def after (p : Progress) (e : Event) : Progress :=
  match e.kind with
  | .jobStarted =>
    { jobId := e.jobId, status := .running, processes := e.processes, batches := e.batches
      files := e.files, startedAt := some e.time }
  | .workerConnected => { p with workersConnected := p.workersConnected + 1 }
  | .batchCompleted =>
    { p with
      batchesDone := p.batchesDone + 1
      filesDone := p.filesDone + e.files
      diagnostics := p.diagnostics + e.diagnostics
      internalErrors := p.internalErrors + e.internalErrors }
  | .workerLost => { p with workersLost := p.workersLost + 1 }
  | .jobFinished =>
    { p with
      finishedAt := some e.time
      filesDone := e.files
      diagnostics := e.diagnostics
      internalErrors := e.internalErrors
      status := if e.error.isEmpty then .finished else .failed
      error := if e.error.isEmpty then p.error else e.error }
  | .other _ => p

/-- The JSON form of the counters. -/
def toJson (p : Progress) : Json :=
  .object <|
    Event.textMember "jobId" p.jobId ++
    [Json.member "status" (.text p.status.name), Json.member "processes" (.int p.processes.toInt),
      Json.member "batches" (.int p.batches.toInt),
      Json.member "batchesDone" (.int p.batchesDone.toInt),
      Json.member "files" (.int p.files.toInt), Json.member "filesDone" (.int p.filesDone.toInt),
      Json.member "diagnostics" (.int p.diagnostics.toInt),
      Json.member "internalErrors" (.int p.internalErrors.toInt),
      Json.member "workersConnected" (.int p.workersConnected.toInt),
      Json.member "workersLost" (.int p.workersLost.toInt)] ++
    Event.textMember "error" p.error ++
    (p.startedAt.map fun t => Json.member "startedAt" (Event.timeJson t)).toList ++
    (p.finishedAt.map fun t => Json.member "finishedAt" (Event.timeJson t)).toList

end Progress

end LintPool
