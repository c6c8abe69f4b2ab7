import LintPool.Pool.Step

/-!
# Rehearsals

A rehearsal drives a pool by hand: it launches the workers of a job and then hands the pool one
scripted happening at a time, keeping a record of what became of every connection and process. A
happening that could not take place is refused and changes nothing. The rehearsal ends when the job
does.

## Main definitions

* `LintPool.Pool.Rehearsal.Setup`, `LintPool.Pool.Rehearsal.Cue` : the circumstances of a rehearsal
  and a scripted happening.
* `LintPool.Pool.Rehearsal.Record` : what is seen of a worker from outside.
* `LintPool.Pool.Rehearsal.play` : a whole rehearsal.
-/

namespace LintPool.Pool.Rehearsal

/-- The circumstances of a rehearsal. -/
structure Setup where
  options : Options := {}
  /-- The numbers, counted from one, of the launches that fail. -/
  failedLaunches : List Nat := []
  /-- Whether processes cannot be killed. -/
  killsFail : Bool := false

/-- A scripted happening. Workers are given by number, counted from one. -/
inductive Cue where
  /-- A new connection introduces itself as a worker. Writes to it fail with `fault`, if any. -/
  | hello (worker : Nat) (fault : Option Bytes)
  /-- A new connection introduces itself by an identifier of its own. -/
  | stranger (identifier : Bytes)
  | result (worker : Nat) (r : Result)
  | lost (worker : Nat) (cause : Option Bytes)
  | exit (worker : Nat) (error : Option Bytes)
  | handshakeTimeout (worker : Nat)
  | batchTimeout (worker : Nat)

/-- What is seen of a worker from outside. -/
structure Record where
  /-- How often its process was killed. -/
  kills : Nat := 0
  /-- The fault of the first connection under its name, once there is one. -/
  connection : Option (Option Bytes) := none
  /-- Whether that connection is closed. -/
  closed : Bool := false
  /-- The batch that it worked on last. -/
  lastBatch : Option Nat := none
  /-- The frames it was sent in the current turn. -/
  sent : List Bytes := []

/-- The records of all workers, in the order of their launch. -/
abbrev Records := List Record

/-- A pool in rehearsal. -/
structure Stage where
  state : State
  records : Records := []

/-- What is seen after a cue. -/
structure Scene where
  state : State
  effects : List Effect
  records : Records
  /-- Whether the connection that introduced itself is closed now, if there is one. -/
  helloClosed : Option Bool := none

/-- The world of a rehearsal. -/
def worldOf (setup : Setup) (records : Records) : World where
  launchError id :=
    if setup.failedLaunches.contains (id + 1) then some (utf8 "cannot start process") else none
  writeError id := (records[id]?.bind (·.connection)).join
  killError _ := if setup.killsFail then some (utf8 "no such process") else none
  elapsed := utf8 "<t>"

/-- Enters an effect in the records. -/
def enter (records : Records) : Effect → Records
  | .sent id frame => records.modify id fun r => { r with sent := r.sent ++ [frame] }
  | .closed id => records.modify id fun r => { r with closed := true }
  | .killed id => records.modify id fun r => { r with kills := r.kills + 1 }
  | _ => records

/-- The records after a turn: new workers get one, the effects of the turn are entered, and so are
the batches in flight at its end. -/
def recordTurn (records : Records) (t : Turn) : Records :=
  let records := records.map fun r => { r with sent := [] }
  let fresh := List.replicate (t.state.workers.length - records.length) ({} : Record)
  let records := t.effects.foldl enter (records ++ fresh)
  records.zipWith (fun r w => { r with lastBatch := (w.batch.map (·.index)).or r.lastBatch })
    t.state.workers

/-- The worker with a number, if it was launched. -/
def worker? (s : State) (number : Nat) : Option (WorkerId × Worker) :=
  match number with
  | 0 => none
  | id + 1 => s.workers[id]?.map fun w => (id, w)

/-- The happening that a cue stands for; none if it could not take place. -/
def happening? (stage : Stage) : Cue → Option Happening
  | .hello number _ => do
    let (id, _) ← worker? stage.state number
    return .hello (.worker id) (utf8 "peer")
  | .stranger identifier => some (.hello (.stranger identifier) (utf8 "peer"))
  | .result number r => do
    let (id, w) ← worker? stage.state number
    if w.connected then some (.result id r) else none
  | .lost number cause => do
    let (id, w) ← worker? stage.state number
    if w.connected then some (.lost id (cause.getD (utf8 "connection closed"))) else none
  | .exit number error => do
    let (id, w) ← worker? stage.state number
    if w.started && !w.exited then some (.exited id error) else none
  | .handshakeTimeout number => do
    let (id, _) ← worker? stage.state number
    return .handshakeTimeout id
  | .batchTimeout number => do
    let (id, _) ← worker? stage.state number
    let index ← stage.records[id]?.bind (·.lastBatch)
    return .batchTimeout id index

/-- Notes the first connection under a worker's name. -/
def noteConnection (records : Records) : Cue → Records
  | .hello (id + 1) fault =>
    records.modify id fun r => { r with connection := r.connection.or (some fault) }
  | _ => records

/-- Whether a turn closed the connection that introduced itself. -/
def closesHello (cue : Cue) (effects : List Effect) : Option Bool :=
  match cue with
  | .hello (id + 1) _ => some (effects.contains .rejected || effects.contains (.closed id))
  | .stranger _ => some (effects.contains .rejected)
  | _ => none

/-- Whether a cue is the first connection under a worker's name, and is turned away. -/
def rejectFirst (before records : Records) (cue : Cue) (effects : List Effect) : Records :=
  match cue with
  | .hello (id + 1) _ =>
    if effects.contains .rejected && (before[id]?.bind (·.connection)).isNone then
      records.modify id fun r => { r with closed := true }
    else records
  | _ => records

/-- Plays one cue. None if it could not take place. -/
def cue? (setup : Setup) (stage : Stage) (cue : Cue) : Option Scene := do
  let h ← happening? stage cue
  let noted := noteConnection stage.records cue
  let t := handle setup.options (worldOf setup noted) stage.state h
  let records := rejectFirst stage.records (recordTurn noted t) cue t.effects
  return { state := t.state, effects := t.effects, records
           helloClosed := closesHello cue t.effects }

/-- Plays cues until the job ends; a refused cue leaves no scene. -/
def playCues (setup : Setup) (stage : Stage) : List Cue → List (Option Scene) × Stage
  | [] => ([], stage)
  | cue :: cues =>
    if stage.state.status = .waiting then
      match cue? setup stage cue with
      | none =>
        let (scenes, final) := playCues setup stage cues
        (none :: scenes, final)
      | some scene =>
        let after := { state := scene.state, records := scene.records }
        let (scenes, final) := playCues setup after cues
        (some scene :: scenes, final)
    else ([], stage)

/-- A whole rehearsal. -/
structure Performance where
  /-- After the launches. -/
  opening : Scene
  scenes : List (Option Scene)
  /-- After the end of the job. -/
  closing : Scene

/-- Rehearses the job of analysing `files`. -/
def play (setup : Setup) (files : List Bytes) (cues : List Cue) : Performance :=
  let t := start setup.options (worldOf setup []) (planFor setup.options files)
  let records := recordTurn [] t
  let (scenes, final) := playCues setup { state := t.state, records } cues
  let ended := shutdown final.state
  { opening := { state := t.state, effects := t.effects, records }
    scenes
    closing :=
      { state := ended.state
        effects := ended.effects
        records := recordTurn final.records ended } }

end LintPool.Pool.Rehearsal
