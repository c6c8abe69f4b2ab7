import LintPool.Pool.Basic

/-!
# How a pool reacts

The coordinator reacts to one happening at a time: a connection introduces itself, a worker reports
a result, a connection or process ends, a deadline passes. The reaction depends on the world, which
decides whether launches and writes succeed, and has effects, which are listed in order beside the
new state. Some effects are seen from outside; the others enter what becomes of batches and workers
in the books of the job.

## Main definitions

* `LintPool.Pool.World` : what the world does to launches, writes and kills.
* `LintPool.Pool.Effect` : an effect of a reaction.
* `LintPool.Pool.Turn` : a state with the effects that led to it.
* `LintPool.Pool.launch`, `LintPool.Pool.assign`, `LintPool.Pool.lose` : the moves that a reaction
  is made of.
* `LintPool.Pool.Happening`, `LintPool.Pool.handle` : a happening and the reaction to it.
* `LintPool.Pool.start`, `LintPool.Pool.shutdown` : the launch of the pool and its end.
-/

namespace LintPool.Pool

/-- What the world does during one reaction. -/
structure World where
  /-- The error of the launch of this worker, if it fails. -/
  launchError : WorkerId → Option Bytes := fun _ => none
  /-- The error of a write to this worker, if it fails. -/
  writeError : WorkerId → Option Bytes := fun _ => none
  /-- The error of an attempt to kill this worker, if it fails. -/
  killError : WorkerId → Option Bytes := fun _ => none
  /-- The time that a finished batch took, as it is logged. -/
  elapsed : Bytes := []
  /-- The texts of the errors that the program does not word itself. -/
  wording : Json.Wording := default

/-- An effect of a reaction. -/
inductive Effect where
  | emit (e : Event)
  | log (line : Bytes)
  /-- A frame went out to a worker. -/
  | sent (id : WorkerId) (frame : Bytes)
  /-- The connection of a worker was closed. -/
  | closed (id : WorkerId)
  /-- The connection that introduced itself was closed. -/
  | rejected
  | killed (id : WorkerId)
  /-- A batch was handed out to a worker, whether or not the write succeeded. -/
  | dispatched (id : WorkerId) (b : Batch)
  /-- A result was merged as the answer to the batch in flight on a worker. -/
  | merged (id : WorkerId) (b : Batch) (r : Result)
  /-- The diagnostics of a result that answers no batch were kept. -/
  | kept (id : WorkerId) (r : Result)
  /-- A worker was lost, and with it the batch in flight, if any. -/
  | lost (id : WorkerId) (b : Option Batch)
  /-- A batch was given up. -/
  | escalated (b : Batch) (cause : Bytes)
  deriving DecidableEq

/-- The events among effects. -/
def eventsOf (effects : List Effect) : List Event :=
  effects.filterMap fun
    | .emit e => some e
    | _ => none

/-- The log lines among effects. -/
def linesOf (effects : List Effect) : List Bytes :=
  effects.filterMap fun
    | .log line => some line
    | _ => none

/-- A state and the effects of the current reaction, in order. -/
structure Turn where
  state : State
  effects : List Effect := []

namespace Turn

/-- Adds an effect. -/
def effect (t : Turn) (e : Effect) : Turn := { t with effects := t.effects ++ [e] }

/-- Emits an event. -/
def emit (t : Turn) (e : Event) : Turn := t.effect (.emit e)

/-- Logs a line. -/
def log (t : Turn) (line : Bytes) : Turn := t.effect (.log (utf8 "[coordinator] " ++ line))

/-- Logs a line if `verbose`. -/
def logIf (t : Turn) (verbose : Bool) (line : Bytes) : Turn := if verbose then t.log line else t

/-- Changes the state. -/
def modify (t : Turn) (f : State → State) : Turn := { t with state := f t.state }

/-- Changes one worker. -/
def update (t : Turn) (id : WorkerId) (f : Worker → Worker) : Turn := t.modify (·.update id f)

end Turn

/-! ## Moves -/

/-- Puts the batch reserved for a worker back to the head of the queue. -/
def requeue (id : WorkerId) (t : Turn) : Turn :=
  match t.state.workers[id]? with
  | some { reserved := some b, .. } =>
    (t.modify fun s => { s with pending := b :: s.pending }).update id
      fun w => { w with reserved := none }
  | _ => t

/-- Launches a worker, perhaps with a batch reserved for it. If the launch fails, the worker is
gone at once and its batch goes back to the queue. -/
def launch (o : Options) (world : World) (reserved : Option Batch) (t : Turn) : Turn :=
  let id := t.state.workers.length
  match world.launchError id with
  | some cause =>
    let worker : Worker := { gone := true, exited := true, reserved }
    requeue id <|
      (t.log (utf8 "launch worker " ++ WorkerId.name id ++ utf8 ": " ++ cause)).modify
        fun s => { s with workers := s.workers ++ [worker] }
  | none =>
    let worker : Worker := { started := true, reserved, timer := 0 < o.handshakeTimeout }
    t.modify fun s => { s with workers := s.workers ++ [worker], running := s.running + 1 }

/-- Gives a batch up: each of its files counts as failed because of `cause`. -/
def escalate (b : Batch) (cause : Bytes) (t : Turn) : Turn :=
  let reason :=
    utf8 "analysis abandoned after " ++ Bytes.natural b.attempts ++ utf8 " attempts: " ++ cause
  let count := Int64.ofNat b.files.length
  let t := t.effect (.escalated b cause)
  t.modify fun s =>
    { s with
      resolved := s.resolved + 1
      report := { s.report with
        errors := s.report.errors ++ b.files.map fun file => .internalError file reason
        files := s.report.files + count
        internal := s.report.internal + count } }

/-- Kills the process of a worker. -/
def kill (o : Options) (world : World) (id : WorkerId) (t : Turn) : Turn :=
  let t := t.effect (.killed id)
  match world.killError id with
  | some cause => t.logIf o.verbose (utf8 "kill worker " ++ WorkerId.name id ++ utf8 ": " ++ cause)
  | none => t

/-- The number of files of the batch in flight on a worker. -/
def filesInFlight (w : Worker) : Nat := (w.batch.map (·.files.length)).getD 0

/-- Hands the batch of a lost worker to a fresh one, or gives it up if it has been handed out too
often; without a batch in flight, the reserved one goes back to the queue. -/
def recover (o : Options) (world : World) (id : WorkerId) (w : Worker) (cause : Bytes) (t : Turn) :
    Turn :=
  match w.batch with
  | none => requeue id t
  | some b =>
    let t := t.update id fun w => { w with batch := none }
    if (b.attempts : Int) ≤ o.retries.toInt then
      launch o world (some b) <|
        t.log (utf8 "retrying " ++ Bytes.natural b.files.length ++ utf8 " files on a fresh worker")
    else escalate b cause t

/-- Launches a further worker if the pool is below its size and batches are queued. -/
def refill (o : Options) (world : World) (t : Turn) : Turn :=
  if !t.state.pending.isEmpty && t.state.live < t.state.target then launch o world none t else t

/-- Loses a worker because of `cause`, unless it is gone already. -/
def lose (o : Options) (world : World) (id : WorkerId) (cause : Bytes) (t : Turn) : Turn :=
  match t.state.workers[id]? with
  | none => t
  | some w =>
    if w.gone then t
    else
      let t := t.update id fun w => { w with gone := true, timer := false }
      let t := if w.connected then t.effect (.closed id) else t
      let t := if w.started && !w.exited then kill o world id t else t
      let t := t.log (utf8 "worker " ++ WorkerId.name id ++ utf8 " lost: " ++ cause)
      let t := t.effect (.lost id w.batch)
      let t := t.emit
        { kind := .workerLost, worker := WorkerId.name id, files := Int64.ofNat (filesInFlight w)
          error := cause }
      let t := recover o world id w cause t
      if w.connected then refill o world t else t

/-- Takes the next batch for a worker: the one reserved for it, or else the first of the queue. -/
def take (id : WorkerId) (t : Turn) : Option Batch × Turn :=
  match t.state.workers[id]? with
  | some { reserved := some b, .. } => (some b, t.update id fun w => { w with reserved := none })
  | _ =>
    match t.state.pending with
    | b :: pending => (some b, t.modify fun s => { s with pending })
    | [] => (none, t)

/-- Sends a batch to a worker, which is lost if that fails. -/
def dispatch (o : Options) (world : World) (id : WorkerId) (b : Batch) (t : Turn) : Turn :=
  let b := { b with attempts := b.attempts + 1 }
  let t := t.update id fun w => { w with batch := some b }
  let t := t.effect (.dispatched id b)
  match Stream.send (world.writeError id) (.analyse b.files) with
  | .error e => lose o world id (utf8 "send batch: " ++ e.message world.wording) t
  | .ok frame =>
    let t := t.effect (.sent id frame)
    let t := t.logIf o.verbose <|
      utf8 "worker " ++ WorkerId.name id ++ utf8 ": dispatched " ++ Bytes.natural b.files.length ++
        utf8 " files (attempt " ++ Bytes.natural b.attempts ++ utf8 ")"
    if 0 < o.processTimeout then t.update id fun w => { w with timer := true } else t

/-- Gives a worker its next batch, or dismisses it if there is none. -/
def assign (o : Options) (world : World) (id : WorkerId) (t : Turn) : Turn :=
  match take id t with
  | (some b, t) => dispatch o world id b t
  | (none, t) => (t.update id fun w => { w with gone := true }).effect (.closed id)

/-! ## Happenings -/

/-- Who a connection says it is. -/
inductive Identity where
  | worker (id : WorkerId)
  /-- An identifier that was given to no worker. -/
  | stranger (identifier : Bytes)
  deriving DecidableEq

/-- Something that happens to a pool. -/
inductive Happening where
  /-- A connection from `peer` introduces itself. -/
  | hello (identity : Identity) (peer : Bytes)
  /-- A connected worker reports a result. -/
  | result (id : WorkerId) (r : Result)
  /-- The connection of a worker ended. -/
  | lost (id : WorkerId) (cause : Bytes)
  /-- The process of a worker exited, perhaps with an error. -/
  | exited (id : WorkerId) (error : Option Bytes)
  /-- The deadline for a worker's hello passed. -/
  | handshakeTimeout (id : WorkerId)
  /-- The deadline for a batch handed to a worker passed. -/
  | batchTimeout (id : WorkerId) (index : Nat)

/-- Turns a connection away. -/
def reject (peer reason : Bytes) (t : Turn) : Turn :=
  (t.log (utf8 "rejecting " ++ peer ++ utf8 ": " ++ reason)).effect .rejected

/-- A connection introduces itself. -/
def bind (o : Options) (world : World) (identity : Identity) (peer : Bytes) (t : Turn) : Turn :=
  match identity with
  | .stranger identifier => reject peer (utf8 "unknown identifier " ++ quoted identifier) t
  | .worker id =>
    match t.state.workers[id]? with
    | none => reject peer (utf8 "unknown identifier " ++ quoted (WorkerId.name id)) t
    | some w =>
      if w.connected || w.gone then
        reject peer (utf8 "identifier " ++ quoted (WorkerId.name id) ++ utf8 " already used") t
      else
        let t := t.update id fun w => { w with timer := false, connected := true }
        let t := t.emit { kind := .workerConnected, worker := WorkerId.name id }
        let t := t.logIf o.verbose
          (utf8 "worker " ++ WorkerId.name id ++ utf8 " connected from " ++ peer)
        assign o world id t

/-- Merges the result of the batch `b` and gives the worker its next one. -/
def complete (o : Options) (world : World) (id : WorkerId) (b : Batch) (r : Result) (t : Turn) :
    Turn :=
  let t := t.update id fun w => { w with timer := false, batch := none }
  let t := t.modify fun s =>
    { s with report := s.report.merge r, resolved := s.resolved + 1 }
  let t := t.effect (.merged id b r)
  let t := t.emit
    { kind := .batchCompleted, worker := WorkerId.name id, files := r.files
      diagnostics := Int64.ofNat r.errors.length, internalErrors := r.internal }
  let t := t.logIf o.verbose <|
    utf8 "worker " ++ WorkerId.name id ++ utf8 ": " ++ Bytes.decimal r.files.toInt ++
      utf8 " files done in " ++ world.elapsed ++ utf8 " (" ++ Bytes.natural t.state.resolved ++
      byte '/' :: Bytes.natural t.state.total ++ utf8 " batches)"
  assign o world id t

/-- Keeps the diagnostics of a result that does not answer the batch in flight. -/
def keep (id : WorkerId) (r : Result) (t : Turn) : Turn :=
  let t := t.log <|
    utf8 "worker " ++ WorkerId.name id ++ utf8 ": unexpected result for " ++
      Bytes.decimal r.files.toInt ++ utf8 " files"
  let t := t.effect (.kept id r)
  t.modify fun s =>
    { s with report := { s.report with
        errors := s.report.errors ++ r.errors
        internal := s.report.internal + r.internal } }

/-- A worker reports a result. It answers the batch in flight if it counts as many files. -/
def receive (o : Options) (world : World) (id : WorkerId) (r : Result) (t : Turn) : Turn :=
  match t.state.workers[id]? with
  | none => t
  | some w =>
    if w.gone then t
    else
      match w.batch with
      | some b =>
        if r.files = Int64.ofNat b.files.length then complete o world id b r t else keep id r t
      | none => keep id r t

/-- The cause of losing a worker whose process exited. -/
def exitCause : Option Bytes → Bytes
  | none => utf8 "worker process exited"
  | some error => utf8 "worker process exited: " ++ error

/-- The process of a worker exited. A connected worker is lost only when its connection ends, after
whatever it sent last. -/
def reap (o : Options) (world : World) (id : WorkerId) (error : Option Bytes) (t : Turn) : Turn :=
  let t := t.update id fun w => { w with exited := true }
  let t := t.modify fun s => { s with running := s.running - 1 }
  match t.state.workers[id]? with
  | some w => if w.connected then t else lose o world id (exitCause error) t
  | none => t

/-- The reaction to a happening. -/
def react (o : Options) (world : World) (t : Turn) : Happening → Turn
  | .hello identity peer => bind o world identity peer t
  | .result id r => receive o world id r t
  | .lost id cause => lose o world id cause t
  | .exited id error => reap o world id error t
  | .handshakeTimeout id =>
    match t.state.workers[id]? with
    | some w =>
      if w.connected then t
      else
        lose o world id
          (utf8 "handshake failed: no hello within " ++ Duration.render o.handshakeTimeout) t
    | none => t
  | .batchTimeout id index =>
    match t.state.workers[id]? with
    | some { batch := some b, .. } =>
      if b.index = index then
        lose o world id (utf8 "process timed out after " ++ Duration.render o.processTimeout) t
      else t
    | _ => t

/-- The turn that a happening leads to. -/
def handle (o : Options) (world : World) (s : State) (h : Happening) : Turn :=
  react o world { state := s } h

/-! ## Beginning and end -/

/-- The schedule of a job. -/
def planFor (o : Options) (files : List Bytes) : Schedule :=
  Schedule.plan files o.maxProcesses o.jobSize o.minJobsPerProcess

/-- Launches the workers of a scheduled job. -/
def start (o : Options) (world : World) (plan : Schedule) : Turn :=
  (List.range plan.processes.toNatClampNeg).foldl (fun t _ => launch o world none t)
    { state := State.ofSchedule plan }

/-- Whether the end of the job kills a worker's process: it runs, and it has not connected or works
on a batch. Other workers exit when their connection closes. -/
def killsAtEnd (w : Worker) : Bool :=
  w.started && !w.exited && (!w.connected || w.batch.isSome)

/-- The end of a job: connections are closed, and processes that would not exit are killed. -/
def shutdown (s : State) : Turn :=
  let effects := s.workers.zipIdx.flatMap fun (w, id) =>
    (if w.connected then [Effect.closed id] else []) ++
      if killsAtEnd w then [Effect.killed id] else []
  { state := { s with
      workers := s.workers.map fun w => { w with timer := false, exited := true }
      running := 0 }
    effects }

end LintPool.Pool
