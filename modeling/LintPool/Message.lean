import LintPool.Report
import LintPool.Text.Blank

/-!
# Messages

A worker and its coordinator exchange messages. A message is one JSON object with an action and a
payload. The reader is strict: it refuses unknown members, trailing data and payloads that do not
fit their action, but takes a well-formed message with an action of its own, whose payload it keeps
as it is.

## Main definitions

* `LintPool.Message` : a message.
* `LintPool.Message.print` : its text.
* `LintPool.Message.parse` : the message of a text.
* `LintPool.Message.ParseError` : why a text is no message.
-/

namespace LintPool

/-- A message between a worker and its coordinator. -/
inductive Message where
  /-- A worker introduces itself. -/
  | hello (identifier : Bytes)
  /-- The coordinator hands out a batch of files. -/
  | analyse (files : List Bytes)
  /-- A worker reports on a batch. -/
  | result (r : Result)
  /-- An action that is none of the above, with its payload as written. -/
  | unknown (name payload : Bytes)
  deriving DecidableEq

namespace Message

/-- The name of a message's action. -/
def action : Message → Bytes
  | .hello _ => utf8 "hello"
  | .analyse _ => utf8 "analyse"
  | .result _ => utf8 "result"
  | .unknown name _ => name

/-! ## Printing -/

/-- The JSON form of a result. -/
def resultJson (r : Result) : Json :=
  .object
    [Json.member "errors" (.array (r.errors.map Diagnostic.toJson)),
      Json.member "filesCount" (.int r.files.toInt),
      Json.member "internalErrorsCount" (.int r.internal.toInt),
      Json.member "hasInferrablePropertyTypesFromConstructor" (.bool r.infer)]

/-- The payload of a message as a value; nothing if the payload of an unknown action is no JSON. A
missing payload is written as an empty object. -/
def payloadJson? : Message → Option Json
  | .hello identifier => some (.object [Json.member "identifier" (.text identifier)])
  | .analyse files => some (.object [Json.member "files" (.array (files.map Json.text))])
  | .result r => some (resultJson r)
  | .unknown _ payload =>
    if payload.isEmpty then some (.object []) else (Json.parse? payload).map Json.shield

/-- The JSON form of a message with the given payload. -/
def envelope (action : Bytes) (payload : Json) : Json :=
  .object [Json.member "action" (.text action), Json.member "payload" payload]

/-- Why a message cannot be written. -/
inductive PrintError where
  /-- The payload is no JSON. -/
  | malformed (action payload : Bytes)
  /-- The payload nests so deeply that the message around it would nest too deeply. -/
  | tooDeep (payload : Bytes)
  deriving DecidableEq

/-- The message of a printing error. -/
def PrintError.message (w : Json.Wording) : PrintError → Bytes
  | .malformed action payload =>
    utf8 "marshal " ++ action ++ utf8 " payload: " ++ w.unwritable payload
  | .tooDeep payload => w.unwritable payload

/-- The payload of a message as it was given; empty if the message makes its payload itself. -/
def givenPayload : Message → Bytes
  | .unknown _ payload => payload
  | _ => []

/-- The text of a message, a single line without its newline. -/
def print (m : Message) : Except PrintError Bytes :=
  match m.payloadJson? with
  | none => .error (.malformed m.action m.givenPayload)
  | some payload =>
    if payload.depth < Json.maxDepth then .ok (envelope m.action payload).print
    else .error (.tooDeep m.givenPayload)

/-! ## Parsing -/

/-- Why a text is no record of the expected shape. -/
inductive ShapeError where
  | empty
  /-- This text is no JSON. -/
  | malformed (s : Bytes)
  | mismatch (m : Json.Mismatch)
  | diagnostic (e : Diagnostic.ReadError)
  | trailing
  deriving DecidableEq

/-- The message of a shape error. -/
def ShapeError.message (w : Json.Wording) : ShapeError → Bytes
  | .empty => utf8 "empty payload"
  | .malformed s => w.malformed s
  | .mismatch m => m.message w
  | .diagnostic e => e.message w
  | .trailing => utf8 "trailing data after object"

/-- What a payload lacks. -/
inductive PayloadError where
  | shape (e : ShapeError)
  | identifierMissing
  | filesMissing
  /-- The path at this index is empty. -/
  | pathEmpty (index : Nat)
  | errorsMissing
  | filesCount
  | internalErrorsCount
  deriving DecidableEq

/-- The message of a payload error. -/
def PayloadError.message (w : Json.Wording) : PayloadError → Bytes
  | .shape e => e.message w
  | .identifierMissing => utf8 "identifier is required"
  | .filesMissing => utf8 "files is required"
  | .pathEmpty index => utf8 "files[" ++ Bytes.natural index ++ utf8 "] is empty"
  | .errorsMissing => utf8 "errors is required"
  | .filesCount => utf8 "filesCount must be a non-negative integer"
  | .internalErrorsCount => utf8 "internalErrorsCount must be a non-negative integer"

/-- Why a text is no message. -/
inductive ParseError where
  | envelope (e : ShapeError)
  | actionMissing
  | payload (action : Bytes) (e : PayloadError)
  deriving DecidableEq

/-- The message of a parsing error. -/
def ParseError.message (w : Json.Wording) (e : ParseError) : Bytes :=
  utf8 "invalid message: " ++
    match e with
    | .envelope e => e.message w
    | .actionMissing => utf8 "missing action"
    | .payload action e => action ++ utf8 " payload: " ++ e.message w

/-- Reads a strict record off a text that should hold nothing else. -/
def readStrict {σ : Type} (fields : List (Json.Field σ Diagnostic.ReadError)) (initial : σ)
    (s : Bytes) : Except ShapeError σ :=
  if (Blank.trimStart s).isEmpty then .error .empty
  else
    match Json.read? s with
    | none => .error (.malformed s)
    | some (v, rest) =>
      match Json.readRecord .strict fields initial v with
      | .error (.mismatch m) => .error (.mismatch m)
      | .error (.part e) => .error (.diagnostic e)
      | .ok record => if rest.all Json.isBlank then .ok record else .error .trailing

/-- The action of a message; its payload is read off the source text. -/
def envelopeFields : List (Json.Field Bytes Diagnostic.ReadError) :=
  [.simple "action" id (fun _ x => x) Json.Field.text,
    .simple "payload" id (fun x _ => x) fun old _ => some old]

/-- The source text of the last payload of a message; empty if there is none. -/
def payloadSource (s : Bytes) : Bytes :=
  let payloads := (Json.sourceMembers s).filter fun m =>
    CaseFold.eqFold (utf8 "payload") (Json.unescape m.1)
  (payloads.getLast?.map (·.2)).getD []

/-- The field of a hello's payload. -/
def helloFields : List (Json.Field (Option Bytes) Diagnostic.ReadError) :=
  [.simple "identifier" id (fun _ x => x) Json.Field.text?]

/-- Reads a path over an earlier one. -/
def readPath (old : Bytes) (v : Json) : Except Unit Bytes :=
  ((Json.Field.text old v).map .ok).getD (.error ())

/-- Reads the list of files over an earlier one. -/
def readFiles (old : Option (Json.Slots Bytes)) : Json → Option (Option (Json.Slots Bytes))
  | .null => some none
  | .array items =>
    match Json.readItems readPath [] [] ((old.map Json.Slots.all).getD []) items with
    | .ok slots => some (some slots)
    | .error () => none
  | _ => none

/-- The field of an analyse message's payload. -/
def analyseFields : List (Json.Field (Option (Json.Slots Bytes)) Diagnostic.ReadError) :=
  [.simple "files" id (fun _ x => x) readFiles]

/-- The members of a result's payload. -/
structure ResultParts where
  errors : Option (Json.Slots Diagnostic) := none
  files : Option Int64 := none
  internal : Option Int64 := none
  infer : Bool := false

/-- The field with the diagnostics of a result. -/
def errorsField : Json.Field ResultParts Diagnostic.ReadError where
  name := utf8 "errors"
  set parts v :=
    match v with
    | .null => .ok { parts with errors := none }
    | .array items =>
      match Diagnostic.readList ((parts.errors.map Json.Slots.all).getD []) items with
      | .ok slots => .ok { parts with errors := some slots }
      | .error e => .error (.part e)
    | _ => .error .wrongType

/-- The fields of a result's payload. -/
def resultFields : List (Json.Field ResultParts Diagnostic.ReadError) :=
  [errorsField,
    .simple "filesCount" ResultParts.files (fun p x => { p with files := x }) Json.Field.integer?,
    .simple "internalErrorsCount" ResultParts.internal (fun p x => { p with internal := x })
      Json.Field.integer?,
    .simple "hasInferrablePropertyTypesFromConstructor" ResultParts.infer
      (fun p x => { p with infer := x }) Json.Field.flag]

/-- Reads the payload of a hello. -/
def parseHello (payload : Bytes) : Except PayloadError Message :=
  match readStrict helloFields none payload with
  | .error e => .error (.shape e)
  | .ok none => .error .identifierMissing
  | .ok (some identifier) =>
    if identifier.isEmpty then .error .identifierMissing else .ok (.hello identifier)

/-- Reads the payload of an analyse message. -/
def parseAnalyse (payload : Bytes) : Except PayloadError Message :=
  match readStrict analyseFields none payload with
  | .error e => .error (.shape e)
  | .ok none => .error .filesMissing
  | .ok (some slots) =>
    match slots.items.findIdx? List.isEmpty with
    | some index => .error (.pathEmpty index)
    | none => .ok (.analyse slots.items)

/-- A count that is present and not negative. -/
def count? (n : Option Int64) : Option Int64 := n.filter (0 ≤ ·)

/-- Reads the payload of a result. -/
def parseResult (payload : Bytes) : Except PayloadError Message :=
  match readStrict resultFields {} payload with
  | .error e => .error (.shape e)
  | .ok parts =>
    match parts.errors, count? parts.files, count? parts.internal with
    | none, _, _ => .error .errorsMissing
    | some _, none, _ => .error .filesCount
    | some _, some _, none => .error .internalErrorsCount
    | some errors, some files, some internal =>
      .ok (.result { errors := errors.items, files, internal, infer := parts.infer })

/-- Reads a payload as its action asks. -/
def parsePayload (action payload : Bytes) : Except PayloadError Message :=
  if action = utf8 "hello" then parseHello payload
  else if action = utf8 "analyse" then parseAnalyse payload
  else if action = utf8 "result" then parseResult payload
  else .ok (.unknown action payload)

/-- The message of a text. -/
def parse (s : Bytes) : Except ParseError Message :=
  match readStrict envelopeFields [] s with
  | .error e => .error (.envelope e)
  | .ok action =>
    if action.isEmpty then .error .actionMissing
    else
      match parsePayload action (payloadSource s) with
      | .ok m => .ok m
      | .error e => .error (.payload action e)

end Message

end LintPool
