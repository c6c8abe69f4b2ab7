import LintPool.Event

/-!
# Records of past jobs

The history keeps one record for each job and one for each batch. They are made from the events of a
job.

## Main definitions

* `LintPool.History.JobRecord` : a job in the history.
* `LintPool.History.BatchRecord` : a batch in the history.
* `LintPool.History.Finish` : what the end of a job changes in its record.
* `LintPool.History.Write` : a change of the history, and `LintPool.History.Write.ofEvent?` the one
  that an event asks for.
-/

namespace LintPool.History

/-- How far a job has come. -/
inductive Status where
  | running
  | completed
  | failed
  /-- A status that was stored under another name. -/
  | other (name : Bytes)
  deriving DecidableEq

/-- The name of a status. -/
def Status.name : Status → Bytes
  | .running => utf8 "RUNNING"
  | .completed => utf8 "COMPLETED"
  | .failed => utf8 "FAILED"
  | .other name => name

/-- A job in the history. -/
structure JobRecord where
  /-- The number of the record, given when it is stored. -/
  id : Nat := 0
  jobId : Bytes := []
  status : Status := .running
  files : Int64 := 0
  batches : Int64 := 0
  processes : Int64 := 0
  diagnostics : Int64 := 0
  internalErrors : Int64 := 0
  error : Bytes := []
  createdAt : Timestamp := .origin
  finishedAt : Option Timestamp := none
  deriving DecidableEq

/-- The record of a job that starts. -/
def JobRecord.ofEvent (e : Event) : JobRecord where
  jobId := e.jobId
  files := e.files
  batches := e.batches
  processes := e.processes
  createdAt := e.time

/-- The JSON form of a job's record. -/
def JobRecord.toJson (r : JobRecord) : Json :=
  .object <|
    [Json.member "id" (.int r.id), Json.member "job_id" (.text r.jobId),
      Json.member "status" (.text r.status.name), Json.member "files" (.int r.files.toInt),
      Json.member "batches" (.int r.batches.toInt),
      Json.member "processes" (.int r.processes.toInt),
      Json.member "diagnostics" (.int r.diagnostics.toInt),
      Json.member "internal_errors" (.int r.internalErrors.toInt)] ++
    Event.textMember "error" r.error ++
    [Json.member "created_at" (Event.timeJson r.createdAt)] ++
    (r.finishedAt.map fun t => Json.member "finished_at" (Event.timeJson t)).toList

/-- A batch in the history: one that was done, or one that was lost with its worker. -/
structure BatchRecord where
  id : Nat := 0
  jobId : Bytes := []
  worker : Bytes := []
  files : Int64 := 0
  diagnostics : Int64 := 0
  internalErrors : Int64 := 0
  durationMs : Int64 := 0
  lost : Bool := false
  error : Bytes := []
  createdAt : Timestamp := .origin
  deriving DecidableEq

/-- The record of the batch that an event is about. -/
def BatchRecord.ofEvent (e : Event) : BatchRecord where
  jobId := e.jobId
  worker := e.worker
  files := e.files
  diagnostics := e.diagnostics
  internalErrors := e.internalErrors
  durationMs := e.durationMs
  lost := e.kind == .workerLost
  error := e.error
  createdAt := e.time

/-- The JSON form of a batch's record. -/
def BatchRecord.toJson (r : BatchRecord) : Json :=
  .object <|
    [Json.member "id" (.int r.id), Json.member "job_id" (.text r.jobId),
      Json.member "worker" (.text r.worker), Json.member "files" (.int r.files.toInt),
      Json.member "diagnostics" (.int r.diagnostics.toInt),
      Json.member "internal_errors" (.int r.internalErrors.toInt),
      Json.member "duration_ms" (.int r.durationMs.toInt), Json.member "lost" (.bool r.lost)] ++
    Event.textMember "error" r.error ++
    [Json.member "created_at" (Event.timeJson r.createdAt)]

/-- What the end of a job changes in its record. -/
structure Finish where
  status : Status
  diagnostics : Int64
  internalErrors : Int64
  error : Bytes
  finishedAt : Timestamp
  deriving DecidableEq

/-- What the end of a job changes, by its last event. -/
def Finish.ofEvent (e : Event) : Finish where
  status := if e.error.isEmpty then .completed else .failed
  diagnostics := e.diagnostics
  internalErrors := e.internalErrors
  error := e.error
  finishedAt := e.time

/-- The JSON form of the changes at the end of a job. -/
def Finish.toJson (f : Finish) : Json :=
  .object
    [Json.member "status" (.text f.status.name),
      Json.member "diagnostics" (.int f.diagnostics.toInt),
      Json.member "internal_errors" (.int f.internalErrors.toInt),
      Json.member "error" (.text f.error), Json.member "finished_at" (Event.timeJson f.finishedAt)]

/-- A change of the history. -/
inductive Write where
  | startJob (record : JobRecord)
  | addBatch (record : BatchRecord)
  | finishJob (jobId : Bytes) (finish : Finish)
  deriving DecidableEq

/-- What a change is called in the log. -/
def Write.name : Write → Bytes
  | .startJob _ => utf8 "job start"
  | .addBatch _ => utf8 "batch"
  | .finishJob .. => utf8 "job finish"

/-- The change that an event asks for. The loss of a worker counts if it had a batch. -/
def Write.ofEvent? (e : Event) : Option Write :=
  match e.kind with
  | .jobStarted => some (.startJob (.ofEvent e))
  | .batchCompleted => some (.addBatch (.ofEvent e))
  | .workerLost => if e.files = 0 then none else some (.addBatch (.ofEvent e))
  | .jobFinished => some (.finishJob e.jobId (.ofEvent e))
  | .workerConnected => none
  | .other _ => none

end LintPool.History
