import LintPool.Analysis
import LintPool.Stream

/-!
# Workers

A worker introduces itself over its connection and then answers every batch of files it is sent with
the result of analysing it, until the stream ends. If a message cannot be read or sent, it reports
the failure once, closes its sending side and stops.

## Main definitions

* `LintPool.Worker.Phase` : the phases in the life of a worker.
* `LintPool.Worker.Connection` : a connection as the worker meets it.
* `LintPool.Worker.Session` : what a worker did over its connection.
* `LintPool.Worker.serve` : a whole session.
-/

namespace LintPool.Worker

/-! ## Phases -/

/-- The phases in the life of a worker. -/
inductive Phase where
  | connecting
  | handshaking
  | idle
  | analysing
  | closed
  deriving DecidableEq

/-- All phases, in order. -/
def Phase.all : List Phase := [.connecting, .handshaking, .idle, .analysing, .closed]

/-- The name of a phase. -/
def Phase.name : Phase → Bytes
  | .connecting => utf8 "connecting"
  | .handshaking => utf8 "handshaking"
  | .idle => utf8 "idle"
  | .analysing => utf8 "analysing"
  | .closed => utf8 "closed"

/-- The name of the phase with a number; numbers without a phase are named by themselves. -/
def Phase.nameOf (n : Int) : Bytes :=
  match n with
  | .ofNat k => (Phase.all[k]?.map Phase.name).getD (utf8 "state(" ++ Bytes.natural k ++ utf8 ")")
  | .negSucc _ => utf8 "state(" ++ Bytes.decimal n ++ utf8 ")"

/-! ## Sessions -/

/-- A connection as the worker meets it. -/
structure Connection where
  /-- The bytes that come in. -/
  inbound : Bytes
  /-- The lengths of the reads that they come in by; a last one brings all that is left. -/
  cuts : List Nat := []
  /-- What comes after them. -/
  ending : Stream.Ending := .closed
  /-- The number, counted from one, of the first write that fails; zero if none does. -/
  failsFrom : Nat := 0
  /-- Whether the sending side can be closed by itself, and the error of doing so, if any. -/
  halfClose : Option (Option Bytes) := none

/-- Why a session failed. -/
inductive Failure where
  | handshake (e : Stream.SendError)
  | reply (e : Stream.SendError)
  | receive (e : Stream.StreamError)
  deriving DecidableEq

/-- The message of a failure. -/
def Failure.message (w : Json.Wording) : Failure → Bytes
  | .handshake e => utf8 "handshake: " ++ e.message w
  | .reply e => utf8 "send result: " ++ e.message w
  | .receive e => e.message w

/-- Why a session did not end with its stream. -/
inductive Interruption where
  | cancelled
  | failed (f : Failure)
  deriving DecidableEq

/-- The message of an interruption. -/
def Interruption.message (w : Json.Wording) : Interruption → Bytes
  | .cancelled => utf8 "context canceled"
  | .failed f => f.message w

/-- What a worker did over its connection. -/
structure Session where
  /-- The frames that went out. -/
  sent : List Bytes := []
  /-- The number of attempts to write. -/
  writes : Nat := 0
  log : List Bytes := []
  /-- Whether the job has been cancelled. -/
  cancelled : Bool := false
  /-- The calls that its analyzer has got, in order, and what came of each. -/
  calls : List (Bytes × Outcome) := []
  /-- How often the sending side was closed by itself. -/
  halfCloses : Nat := 0
  phase : Phase := .connecting
  /-- Why the session did not end with its stream. -/
  error : Option Interruption := none

namespace Session

/-- The files that the worker analysed, in order. -/
def visited (s : Session) : List Bytes := s.calls.map (·.1)

/-- Logs a line. -/
def note (identifier line : Bytes) (s : Session) : Session :=
  { s with log := s.log ++ [utf8 "[worker " ++ identifier ++ utf8 "] " ++ line] }

/-- The error of the next write, if it fails. -/
def fault (c : Connection) (s : Session) : Option Bytes :=
  if c.failsFrom ≠ 0 ∧ c.failsFrom ≤ s.writes + 1 then some (utf8 "broken pipe") else none

/-- Sends a message. A message that cannot be encoded is not an attempt to write. -/
def send (c : Connection) (m : Message) (s : Session) : Session × Option Stream.SendError :=
  match Stream.send (s.fault c) m with
  | .ok frame => ({ s with sent := s.sent ++ [frame], writes := s.writes + 1 }, none)
  | .error (.write action cause) =>
    ({ s with writes := s.writes + 1 }, some (.write action cause))
  | .error e => (s, some e)

/-- Closes the sending side. -/
def closeSending (identifier : Bytes) (c : Connection) (s : Session) : Session :=
  match c.halfClose with
  | none => s
  | some error =>
    let s := { s with halfCloses := s.halfCloses + 1 }
    match error with
    | none => s
    | some cause => s.note identifier (utf8 "close: " ++ cause)

/-- Reports a failure and stops. -/
def fail (w : Json.Wording) (identifier : Bytes) (c : Connection) (f : Failure) (s : Session) :
    Session :=
  let s := s.note identifier (utf8 "connection failed: " ++ f.message w)
  let (s, error) := s.send c (.result (.ofFailure (f.message w)))
  let s := match error with
    | none => s
    | some e => s.note identifier (utf8 "could not report failure: " ++ e.message w)
  { s.closeSending identifier c with error := some (.failed f) }

end Session

/-- Answers what comes in, one by one. The analyzer keeps a record of the calls that it gets. -/
def answerAll (w : Json.Wording) (identifier : Bytes) (analyzer : Analyzer) (c : Connection)
    (s : Session) : List Stream.Answer → Session
  | [] => s
  | .eof :: _ => s
  | .error e :: _ =>
    if s.cancelled then { s with error := some .cancelled }
    else s.fail w identifier c (.receive e)
  | .message (.analyse files) :: rest =>
    let (result, cancelled, calls) :=
      analyzer.examiner.recording.analyseBatch (s.cancelled, s.calls) files
    let s := { s with cancelled, calls, phase := .analysing }
    match s.send c (.result result) with
    | (s, none) => answerAll w identifier analyzer c { s with phase := .idle } rest
    | (s, some e) => s.fail w identifier c (.reply e)
  | .message m :: rest =>
    answerAll w identifier analyzer c
      (s.note identifier (utf8 "ignoring " ++ quoted m.action ++ utf8 " message")) rest

/-- A whole session. -/
def serve (w : Json.Wording) (identifier : Bytes) (analyzer : Analyzer) (c : Connection) :
    Session :=
  let s :=
    match ({ phase := .handshaking } : Session).send c (.hello identifier) with
    | (s, some e) => s.fail w identifier c (.handshake e)
    | (s, none) =>
      answerAll w identifier analyzer c { s with phase := .idle }
        (Stream.decode c.inbound c.ending c.cuts).yields
  { s with phase := .closed }

end LintPool.Worker
