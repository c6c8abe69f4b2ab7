import LintPool.Pool.Step

/-!
# Whole jobs

A job tells its observers that it starts, analyses its files and tells them how it finished. It is
done either by worker processes or, without any, in the process that runs it.

## Main definitions

* `LintPool.Pool.Job` : what a finished job leaves behind.
* `LintPool.Pool.examineHere`, `LintPool.Pool.analyseHere` : a job in the running process.
* `LintPool.Pool.Occasion`, `LintPool.Pool.follow` : the course of a job through what happens to it.
* `LintPool.Pool.coordinate` : a job on worker processes.
* `LintPool.Pool.Fate`, `LintPool.Pool.coordinateUnconnected` : a job whose workers do not connect.
-/

namespace LintPool.Pool

/-- What a finished job leaves behind. -/
structure Job where
  report : Report := {}
  error : Option JobError := none
  events : List Event := []
  /-- The calls that an analyzer got in the running process, in order, and what came of each. -/
  calls : List (Bytes × Outcome) := []
  /-- Whether the job was cancelled by the time it ended. -/
  cancelled : Bool := false

/-- The files that were analysed in the running process, in order. -/
def Job.visited (job : Job) : List Bytes := job.calls.map (·.1)

/-- The event at the start of a job. -/
def startEvent (processes : Int64) (jobs : List (List Bytes)) (files : List Bytes) : Event :=
  { kind := .jobStarted, processes, batches := Int64.ofNat jobs.length
    files := Int64.ofNat files.length }

/-- The event at the end of a job. -/
def finishEvent (report : Report) (error : Option JobError) : Event :=
  { kind := .jobFinished, files := report.files, diagnostics := Int64.ofNat report.errors.length
    internalErrors := report.internal, error := (error.map JobError.message).getD [] }

/-- The event of a finished batch. -/
def batchEvent (r : Result) : Event :=
  { kind := .batchCompleted, files := r.files, diagnostics := Int64.ofNat r.errors.length
    internalErrors := r.internal }

/-! ## In the running process -/

/-- Has batches looked at one after another, by an analyzer whose memory tells whether the job has
been cancelled, until it has. The job's cancellation is looked at before each batch, never inside of
one, but it may come at any file. -/
def examineJobs {σ : Type} (x : Examiner σ) (stopped : σ → Bool) (memory : σ) (job : Job) :
    List (List Bytes) → Job
  | [] => { job with cancelled := stopped memory }
  | files :: rest =>
    if stopped memory then { job with error := some .cancelled, cancelled := true }
    else
      let (result, next, calls) := x.recording.analyseBatch (memory, job.calls) files
      examineJobs x stopped next
        { job with
          report := job.report.merge result
          events := job.events ++ [batchEvent result]
          calls }
        rest

/-- A job of batches of `jobSize` files in the running process, for an analyzer with a memory. -/
def examineHere {σ : Type} (jobSize : Int64) (x : Examiner σ) (stopped : σ → Bool) (memory : σ)
    (files : List Bytes) : Job :=
  let jobs := (Schedule.plan files 1 jobSize 1).jobs
  let job := examineJobs x stopped memory { events := [startEvent 0 jobs files] } jobs
  { job with events := job.events ++ [finishEvent job.report job.error] }

/-- Analyses batches one after another until the job is cancelled. -/
def analyseJobs (analyzer : Analyzer) (cancelled : Bool) (job : Job) (jobs : List (List Bytes)) :
    Job :=
  examineJobs analyzer.examiner id cancelled job jobs

/-- A job of batches of `jobSize` files in the running process. -/
def analyseHere (jobSize : Int64) (analyzer : Analyzer) (cancelled : Bool) (files : List Bytes) :
    Job :=
  examineHere jobSize analyzer.examiner id cancelled files

/-! ## On worker processes -/

/-- Something that happens to a pool, and the world in which it does. -/
structure Occasion where
  world : World := {}
  happening : Happening
  /-- Whether the job turns out to be cancelled when this has been dealt with. -/
  cancels : Bool := false

/-- Whether an event of the kind that cancels the job is among `events`. -/
def cancels (cancelOn : Option Event.Kind) (events : List Event) : Bool :=
  events.any fun e => some e.kind == cancelOn

/-- How a job stands that may have been cancelled. One that has come to its end stands as before. -/
def standing (cancelled : Bool) (s : State) : Status :=
  match s.status with
  | .waiting => if cancelled then .failed .cancelled else .waiting
  | status => status

/-- The course of a job through occasions, as long as it goes on, and whether it is cancelled in the
end. The effects of all turns are kept. -/
def follow (o : Options) (cancelOn : Option Event.Kind) (t : Turn) (cancelled : Bool) :
    List Occasion → Turn × Bool
  | [] => (t, cancelled)
  | occasion :: rest =>
    if standing cancelled t.state = .waiting then
      let next := handle o occasion.world t.state occasion.happening
      follow o cancelOn { next with effects := t.effects ++ next.effects }
        (cancelled || occasion.cancels || cancels cancelOn (eventsOf next.effects)) rest
    else (t, cancelled)

/-- The error that a job ended with. -/
def Status.error? : Status → Option JobError
  | .failed e => some e
  | _ => none

/-- A job on worker processes, launched in `world` and then taken through occasions. It may be
cancelled from the start or turn out to be after any occasion, and observers may cancel it on an
event of the kind `cancelOn`. A job that still goes on after the last occasion has not told its end
yet. -/
def coordinate (o : Options) (world : World) (cancelOn : Option Event.Kind) (cancelled : Bool)
    (files : List Bytes) (occasions : List Occasion) : Job :=
  if files.isEmpty then {}
  else
    let plan := planFor o files
    let started := startEvent plan.processes plan.jobs files
    let (t, cancelled) :=
      follow o cancelOn (start o world plan) (cancelled || cancels cancelOn [started]) occasions
    let status := standing cancelled t.state
    let finished := if status = .waiting then [] else [finishEvent t.state.report status.error?]
    { report := t.state.report
      error := status.error?
      cancelled := status = .failed .cancelled
      events := started :: (eventsOf t.effects ++ finished) }

/-! ### Workers that do not connect -/

/-- What becomes of a worker process that does not connect. -/
inductive Fate where
  /-- It cannot be started. -/
  | unstartable (cause : Bytes)
  /-- It exits, perhaps with an error. -/
  | exits (error : Option Bytes)
  deriving DecidableEq

/-- The world in which launched processes have the given fates. -/
def worldOf (fate : WorkerId → Fate) : World where
  launchError id :=
    match fate id with
    | .unstartable cause => some cause
    | .exits _ => none

/-- The exit of a process, if it could be started. -/
def exitOf? (fate : WorkerId → Fate) (id : WorkerId) : Option Occasion :=
  match fate id with
  | .unstartable _ => none
  | .exits error => some { world := worldOf fate, happening := .exited id error }

/-- A job on worker processes of which none gets to connect: they exit one after another. No worker
without a connection is ever replaced, so that there are no more than the first. -/
def coordinateUnconnected (o : Options) (fate : WorkerId → Fate) (cancelOn : Option Event.Kind)
    (cancelled : Bool) (files : List Bytes) : Job :=
  let launched := (planFor o files).processes.toNatClampNeg
  coordinate o (worldOf fate) cancelOn cancelled files
    ((List.range launched).filterMap (exitOf? fate))

end LintPool.Pool
