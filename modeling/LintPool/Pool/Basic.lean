import LintPool.Analysis
import LintPool.Event
import LintPool.Schedule
import LintPool.Stream

/-!
# The state of a worker pool

The coordinator of a job launches worker processes, hands out batches to them and collects the
results. Workers are numbered in the order of their launch. A batch is always in one of four places:
queued, reserved for a worker that has not connected yet, in flight on a connected worker, or
resolved.

## Main definitions

* `LintPool.Pool.Options` : the settings of a pool.
* `LintPool.Pool.Batch`, `LintPool.Pool.Worker` : a batch and a worker.
* `LintPool.Pool.State` : the state of a pool between events.
* `LintPool.Pool.Status` : whether the job is done, goes on or has to be given up.
-/

namespace LintPool.Pool

/-- The settings of a pool. A timeout that is not positive is switched off. -/
structure Options where
  maxProcesses : Int64 := 1
  jobSize : Int64 := 20
  minJobsPerProcess : Int64 := 2
  /-- How long a batch may take. -/
  processTimeout : Duration := .ofSeconds 600
  /-- How long a worker may take from its launch to its hello. -/
  handshakeTimeout : Duration := .ofSeconds 30
  /-- How often a lost batch is handed out again. -/
  retries : Int64 := 1
  /-- Whether every dispatch and result is logged. -/
  verbose : Bool := false

/-- A batch of files. -/
structure Batch where
  /-- Its place in the schedule, by which it is told from the others. -/
  index : Nat
  files : List Bytes
  /-- How often it has been handed out. -/
  attempts : Nat := 0
  deriving DecidableEq

/-- A worker as the coordinator sees it. -/
structure Worker where
  /-- Whether its process could be launched. -/
  started : Bool := false
  connected : Bool := false
  exited : Bool := false
  /-- Lost or dismissed: nothing it does matters any more. -/
  gone : Bool := false
  /-- The batch it gets first once it connects. -/
  reserved : Option Batch := none
  /-- The batch it works on. -/
  batch : Option Batch := none
  /-- Whether a deadline is running. -/
  timer : Bool := false
  deriving DecidableEq

/-- The number of a worker: its place in the order of launches, from zero. -/
abbrev WorkerId := Nat

/-- The name of a worker in events and log lines. -/
def WorkerId.name (id : WorkerId) : Bytes := byte 'w' :: Bytes.natural (id + 1)

/-- The state of a pool between events. -/
structure State where
  /-- All workers launched so far, in order. -/
  workers : List Worker := []
  /-- The batches that wait for a worker, the next one first. -/
  pending : List Batch := []
  /-- The number of batches of the job. -/
  total : Nat := 0
  /-- The number of batches merged or given up. -/
  resolved : Nat := 0
  /-- The number of processes launched and not known to have exited. -/
  running : Int := 0
  /-- The number of workers to keep. -/
  target : Nat := 0
  report : Report := {}

namespace State

/-- The number of workers that still matter. -/
def live (s : State) : Nat := s.workers.countP (!·.gone)

/-- Changes one worker. -/
def update (s : State) (id : WorkerId) (f : Worker → Worker) : State :=
  { s with workers := s.workers.modify id f }

/-- The state of a scheduled job before any launch. -/
def ofSchedule (plan : Schedule) : State where
  pending := plan.jobs.mapIdx fun index files => { index, files }
  total := plan.jobs.length
  target := plan.processes.toNatClampNeg

end State

/-- Why a job ended without all of its batches. -/
inductive JobError where
  /-- No worker is left while batches are unfinished. -/
  | noWorkers (unfinished total : Nat)
  | cancelled
  deriving DecidableEq

/-- The message of a job's error. -/
def JobError.message : JobError → Bytes
  | .noWorkers unfinished total =>
    utf8 "no workers left: " ++ Bytes.natural unfinished ++ utf8 " of " ++ Bytes.natural total ++
      utf8 " batches unfinished"
  | .cancelled => utf8 "context canceled"

/-- How a job stands. -/
inductive Status where
  | done
  | waiting
  | failed (e : JobError)
  deriving DecidableEq

/-- How the job of a pool stands between events. -/
def State.status (s : State) : Status :=
  if s.resolved = s.total then .done
  else if s.live = 0 then .failed (.noWorkers (s.total - s.resolved) s.total)
  else .waiting

end LintPool.Pool
