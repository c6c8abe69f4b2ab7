import LintPool.Json.Basic
import LintPool.Timestamp

/-!
# Progress events

A job tells its observers how it goes along: when it starts, when a worker connects or is lost, when
a batch is done and when the job ends.

## Main definitions

* `LintPool.Event` : an event.
* `LintPool.Event.toJson` : its JSON form, with empty members left out.
-/

namespace LintPool

/-- What happened. -/
inductive Event.Kind where
  | jobStarted
  | workerConnected
  | batchCompleted
  | workerLost
  | jobFinished
  /-- A kind that observers do not know. -/
  | other (name : Bytes)
  deriving DecidableEq

/-- The name of a kind of event. -/
def Event.Kind.name : Event.Kind → Bytes
  | .jobStarted => utf8 "job_started"
  | .workerConnected => utf8 "worker_connected"
  | .batchCompleted => utf8 "batch_completed"
  | .workerLost => utf8 "worker_lost"
  | .jobFinished => utf8 "job_finished"
  | .other name => name

/-- The kind of event with a given name. -/
def Event.Kind.ofName (name : Bytes) : Event.Kind :=
  ([.jobStarted, .workerConnected, .batchCompleted, .workerLost, .jobFinished].find?
    (·.name = name)).getD (.other name)

/-- An event of a job. Counts that do not belong to the kind of event are zero. -/
structure Event where
  kind : Event.Kind
  jobId : Bytes := []
  worker : Bytes := []
  processes : Int64 := 0
  batches : Int64 := 0
  files : Int64 := 0
  diagnostics : Int64 := 0
  internalErrors : Int64 := 0
  durationMs : Int64 := 0
  error : Bytes := []
  time : Timestamp := .origin
  deriving DecidableEq

namespace Event

/-- A text member that is left out if it is empty. -/
def textMember (key : String) (s : Bytes) : List (Bytes × Json) :=
  if s.isEmpty then [] else [Json.member key (.text s)]

/-- An integer member that is left out if it is zero. -/
def intMember (key : String) (n : Int64) : List (Bytes × Json) :=
  if n = 0 then [] else [Json.member key (.int n.toInt)]

/-- A point in time as a value. -/
def timeJson (t : Timestamp) : Json := .text t.render

/-- The JSON form of an event. -/
def toJson (e : Event) : Json :=
  .object <|
    [Json.member "type" (.text e.kind.name), Json.member "jobId" (.text e.jobId)] ++
    textMember "worker" e.worker ++ intMember "processes" e.processes ++
    intMember "batches" e.batches ++ intMember "files" e.files ++
    intMember "diagnostics" e.diagnostics ++ intMember "internalErrors" e.internalErrors ++
    intMember "durationMs" e.durationMs ++ textMember "error" e.error ++
    [Json.member "time" (timeJson e.time)]

end Event

end LintPool
