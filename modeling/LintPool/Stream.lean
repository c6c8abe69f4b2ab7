import LintPool.Message
import LintPool.Stream.LineBuffer

/-!
# Messages on a byte stream

On the wire a message is one line of at most four megabytes. A reader of a stream skips blank lines,
yields the messages of the other lines, and stops at the first line that is too long or holds no
message, or where the stream breaks. How the stream is cut into reads does not matter to it.

## Main definitions

* `LintPool.Stream.encode` : the frame of a message, newline included.
* `LintPool.Stream.decode` : what a stream holds: its messages and the error that ended it, if any.
* `LintPool.Stream.Decoded.results` : the answers to a number of requests for the next message.
-/

namespace LintPool.Stream

/-- The greatest length of a message's text, newline excluded. -/
def maxSize : Nat := 4194304

/-! ## Sending -/

/-- Why a message was not sent. -/
inductive SendError where
  | unprintable (e : Message.PrintError)
  | tooLarge (action : Bytes) (size : Nat)
  /-- The connection refused the frame of a message with this action. -/
  | write (action cause : Bytes)
  deriving DecidableEq

/-- The message of a sending error. -/
def SendError.message (w : Json.Wording) : SendError → Bytes
  | .unprintable e => e.message w
  | .tooLarge action size =>
    utf8 "message exceeds maximum size: " ++ action ++ utf8 " message is " ++ Bytes.natural size ++
      utf8 " bytes (limit " ++ Bytes.natural maxSize ++ utf8 ")"
  | .write action cause => utf8 "write " ++ action ++ utf8 ": " ++ cause

/-- The frame of a message, newline included. -/
def encode (m : Message) : Except SendError Bytes :=
  match m.print with
  | .error e => .error (.unprintable e)
  | .ok text =>
    if maxSize < text.length then .error (.tooLarge m.action text.length)
    else .ok (text ++ [byte '\n'])

/-- Sends a message over a connection on which writes fail with `fault`, if any. The frame, if it
goes out. -/
def send (fault : Option Bytes) (m : Message) : Except SendError Bytes := do
  let frame ← encode m
  match fault with
  | some cause => .error (.write m.action cause)
  | none => .ok frame

/-! ## Receiving -/

/-- How a stream of bytes ends. -/
inductive Ending where
  | closed
  | broken (cause : Bytes)
  deriving DecidableEq

/-- Why a stream yields no further message. -/
inductive StreamError where
  | malformed (e : Message.ParseError)
  | tooLarge
  | read (cause : Bytes)
  deriving DecidableEq

/-- The message of a stream error. -/
def StreamError.message (w : Json.Wording) : StreamError → Bytes
  | .malformed e => utf8 "malformed message: " ++ e.message w
  | .tooLarge =>
    utf8 "message exceeds maximum size (limit " ++ Bytes.natural maxSize ++ utf8 " bytes)"
  | .read cause => utf8 "read: " ++ cause

/-- A line without one carriage return at its end. -/
def dropReturn (line : Bytes) : Bytes :=
  if line.getLast? = some (byte '\r') then line.dropLast else line

/-- What a line holds: nothing, a message, or an error. -/
def decodeLine (line : Bytes) : Option (Except StreamError Message) :=
  let text := Blank.trim (dropReturn line)
  if text.isEmpty then none
  else
    match Message.parse text with
    | .ok m => some (.ok m)
    | .error e => some (.error (.malformed e))

/-- What a stream holds: the messages before its first error, and that error. -/
structure Decoded where
  messages : List Message
  error : Option StreamError
  deriving DecidableEq

/-- Reads the lines of a stream in order, after which there is the error `last`, if any. `acc` holds
the messages read so far, last first. -/
def decodeLines (last : Option StreamError) (acc : List Message) : List Bytes → Decoded
  | [] => { messages := acc.reverse, error := last }
  | line :: lines =>
    match decodeLine line with
    | none => decodeLines last acc lines
    | some (.ok m) => decodeLines last (m :: acc) lines
    | some (.error e) => { messages := acc.reverse, error := some e }

/-- The error of a stream that ends. -/
def Ending.error? : Ending → Option StreamError
  | .closed => none
  | .broken cause => some (.read cause)

/-- The buffer of a stream before the first read. A line and its newline fit in once it has grown.
-/
def emptyBuffer : LineBuffer (maxSize + 1) where
  size := 512
  spent := 0
  held := []
  size_pos := by decide
  size_le := by decide
  fits := by decide

/-- What the bytes `s` of a stream hold that then ends as given. The stream is cut into reads of the
lengths `cuts`, and a last one. -/
def decode (s : Bytes) (ending : Ending) (cuts : List Nat := []) : Decoded :=
  let scanned := emptyBuffer.scan [] (pieces cuts s)
  decodeLines (if scanned.overflow then some .tooLarge else ending.error?) [] scanned.lines

/-- The answer to a request for the next message. -/
inductive Answer where
  | message (m : Message)
  | error (e : StreamError)
  | eof

/-- Everything that a stream yields before its end: the messages, then the error if there is one. -/
def Decoded.yields (d : Decoded) : List Answer :=
  d.messages.map Answer.message ++ (d.error.map Answer.error).toList

/-- The answer to the request number `n`, counted from zero. -/
def Decoded.answer (d : Decoded) (n : Nat) : Answer := d.yields.getD n .eof

/-- The answers to the first `n` requests. -/
def Decoded.answers (d : Decoded) (n : Nat) : List Answer := (List.range n).map d.answer

end LintPool.Stream
