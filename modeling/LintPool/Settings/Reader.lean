import LintPool.Duration.Parse
import LintPool.Settings.Basic
import LintPool.Yaml.Scalar

/-!
# Reading settings

Settings are read from a YAML file over the defaults. Values of the wrong type and unknown or
repeated keys are faults of the file, of which it does not matter how many there are. A bad level is
reported by itself, and before all faults.

## Main definitions

* `LintPool.Settings.LoadError` : why settings could not be loaded.
* `LintPool.Settings.ofNode` : the settings of a document.
* `LintPool.Settings.load` : the settings of a file and the environment.
-/

namespace LintPool.Settings

/-- Something of type `α` while it is read, and whether there were faults. -/
structure Draft (α : Type) where
  value : α
  faulty : Bool := false

/-- Reads a value over an earlier one. Only a bad level ends the reading. -/
abbrev Reader (α : Type) := α → Yaml.Node → Except Level.ParseError (Draft α)

/-! ## Scalars and lists -/

/-- Reads a scalar by its meaning. The null value leaves things as they are. -/
def readScalar {α : Type} (meaning? : Yaml.Scalar → Bytes → Option α) : Reader α := fun old node =>
  match node with
  | .scalar plain text =>
    match Yaml.Scalar.of plain text with
    | .null => .ok { value := old }
    | meaning =>
      match meaning? meaning text with
      | some value => .ok { value }
      | none => .ok { value := old, faulty := true }
  | _ => .ok { value := old, faulty := true }

/-- Reads a text; any scalar has one. -/
def readText : Reader Bytes := readScalar fun _ text => some text

/-- Reads an integer. -/
def readInteger : Reader Int64 := readScalar fun meaning _ => meaning.integer?

/-- Reads a boolean. -/
def readFlag : Reader Bool := readScalar fun meaning _ => meaning.flag?

/-- Reads a duration, which is always written with its unit. -/
def readDuration : Reader Duration := readScalar fun meaning _ =>
  match meaning with
  | .text s => Duration.parse? s
  | _ => none

/-- Reads a level. -/
def readLevel : Reader Int64 := fun old node =>
  let isNull : Bool :=
    match node with
    | .scalar plain text =>
      match Yaml.Scalar.of plain text with
      | .null => true
      | _ => false
    | _ => false
  if isNull then .ok { value := old } else (Level.parse node.text).map fun value => { value }

/-- The texts of the items of a list, and whether there are items of another kind. Null items are
left out. -/
def items : List Yaml.Node → Draft (List Bytes)
  | [] => { value := [] }
  | node :: rest =>
    let others := items rest
    match node with
    | .scalar plain text =>
      match Yaml.Scalar.of plain text with
      | .null => others
      | _ => { others with value := text :: others.value }
    | _ => { others with faulty := true }

/-- Reads a list of texts. The null value empties it. -/
def readTexts : Reader (List Bytes) := fun old node =>
  match node with
  | .sequence nodes => .ok (items nodes)
  | .scalar plain text =>
    match Yaml.Scalar.of plain text with
    | .null => .ok { value := [] }
    | _ => .ok { value := old, faulty := true }
  | .mapping _ => .ok { value := old, faulty := true }

/-! ## Records -/

/-- A field of a record, and how it is read. -/
structure Field (α : Type) where
  name : Bytes
  read : Reader α

/-- The field of a record `α` that holds a `β`. -/
def Field.of {α β : Type} (name : String) (get : α → β) (set : α → β → α) (read : Reader β) :
    Field α where
  name := utf8 name
  read := fun old node => (read (get old) node).map fun d => { d with value := set old d.value }

/-- Whether two keys are the same: collections are keys without a text. -/
def sameKey (a b : Yaml.Node) : Bool :=
  match a, b with
  | .scalar _ s, .scalar _ t => s == t
  | .sequence _, .sequence _ => true
  | .mapping _, .mapping _ => true
  | _, _ => false

/-- Whether a key occurs twice. -/
def hasRepeatedKey : List (Yaml.Node × Yaml.Node) → Bool
  | [] => false
  | (key, _) :: rest => rest.any (fun member => sameKey key member.1) || hasRepeatedKey rest

/-- Reads one member of a record. A null key is passed over. -/
def readMember {α : Type} (fields : List (Field α)) (d : Draft α) (key value : Yaml.Node) :
    Except Level.ParseError (Draft α) :=
  match key with
  | .scalar plain text =>
    match Yaml.Scalar.of plain text with
    | .null => .ok d
    | _ =>
      match fields.find? (·.name = text) with
      | none => .ok { d with faulty := true }
      | some field =>
        (field.read d.value value).map fun read => { read with faulty := d.faulty || read.faulty }
  | _ => .ok { d with faulty := true }

/-- Reads the members of a record in order. -/
def readMembers {α : Type} (fields : List (Field α)) (d : Draft α) :
    List (Yaml.Node × Yaml.Node) → Except Level.ParseError (Draft α)
  | [] => .ok d
  | (key, value) :: rest => do
    let d ← readMember fields d key value
    readMembers fields d rest

/-- Reads a record. The null value leaves it as it is, and so does a mapping with a repeated key. -/
def readRecord {α : Type} (fields : List (Field α)) : Reader α := fun old node =>
  match node with
  | .mapping pairs =>
    if hasRepeatedKey pairs then .ok { value := old, faulty := true }
    else readMembers fields { value := old } pairs
  | .scalar plain text =>
    match Yaml.Scalar.of plain text with
    | .null => .ok { value := old }
    | _ => .ok { value := old, faulty := true }
  | .sequence _ => .ok { value := old, faulty := true }

/-- The fields of `parallel`. -/
def parallelFields : List (Field Parallel) :=
  [.of "maximumNumberOfProcesses" Parallel.maxProcesses
      (fun p x => { p with maxProcesses := x }) readInteger,
    .of "jobSize" Parallel.jobSize (fun p x => { p with jobSize := x }) readInteger,
    .of "minimumNumberOfJobsPerProcess" Parallel.minJobsPerProcess
      (fun p x => { p with minJobsPerProcess := x }) readInteger,
    .of "processTimeout" Parallel.processTimeout
      (fun p x => { p with processTimeout := x }) readDuration,
    .of "handshakeTimeout" Parallel.handshakeTimeout
      (fun p x => { p with handshakeTimeout := x }) readDuration,
    .of "retries" Parallel.retries (fun p x => { p with retries := x }) readInteger]

/-- The fields of `resultCache`. -/
def cacheFields : List (Field ResultCache) :=
  [.of "driver" ResultCache.driver (fun c x => { c with driver := x }) readText,
    .of "path" ResultCache.path (fun c x => { c with path := x }) readText,
    .of "redisAddr" ResultCache.redisAddr (fun c x => { c with redisAddr := x }) readText,
    .of "redisPassword" ResultCache.redisPassword
      (fun c x => { c with redisPassword := x }) readText,
    .of "redisDB" ResultCache.redisDB (fun c x => { c with redisDB := x }) readInteger,
    .of "ttl" ResultCache.ttl (fun c x => { c with ttl := x }) readDuration]

/-- The fields of `history`. -/
def historyFields : List (Field Bytes) := [.of "dsn" id (fun _ x => x) readText]

/-- The fields of `dashboard`. -/
def dashboardFields : List (Field Dashboard) :=
  [.of "enabled" Dashboard.enabled (fun d x => { d with enabled := x }) readFlag,
    .of "address" Dashboard.address (fun d x => { d with address := x }) readText]

/-- The fields of `parameters`. -/
def fields : List (Field Settings) :=
  [.of "level" Settings.level (fun s x => { s with level := x }) readLevel,
    .of "paths" Settings.paths (fun s x => { s with paths := x }) readTexts,
    .of "excludePaths" Settings.excludePaths (fun s x => { s with excludePaths := x }) readTexts,
    .of "fileExtensions" Settings.fileExtensions
      (fun s x => { s with fileExtensions := x }) readTexts,
    .of "parallel" Settings.parallel (fun s x => { s with parallel := x })
      (readRecord parallelFields),
    .of "resultCache" Settings.resultCache (fun s x => { s with resultCache := x })
      (readRecord cacheFields),
    .of "history" Settings.historyDsn (fun s x => { s with historyDsn := x })
      (readRecord historyFields),
    .of "dashboard" Settings.dashboard (fun s x => { s with dashboard := x })
      (readRecord dashboardFields)]

/-- Reads a whole document over the defaults. -/
def ofNode : Reader Settings :=
  readRecord [{ name := utf8 "parameters", read := readRecord fields }]

/-! ## Loading -/

/-- Why settings could not be loaded. -/
inductive LoadError where
  /-- The file could not be read. -/
  | unreadable (cause : Bytes)
  | badLevel (e : Level.ParseError)
  /-- The file is no YAML, or has faults. -/
  | faulty
  | invalid (e : Invalid)
  deriving DecidableEq

/-- The message of a loading error. -/
def LoadError.message : LoadError → Bytes
  | .unreadable cause => utf8 "read config file: " ++ cause
  | .badLevel e => utf8 "parse config file: " ++ e.message
  | .faulty => utf8 "parse config file: <yaml>"
  | .invalid e => e.message

/-- The settings in the content of a file. -/
def parse (content : Bytes) : Except LoadError Settings :=
  match Yaml.read content with
  | .missing => .ok {}
  | .faulty => .error .faulty
  | .value node =>
    match ofNode {} node with
    | .error e => .error (.badLevel e)
    | .ok d => if d.faulty then .error .faulty else .ok d.value

/-- The settings of a file at `path`, of which `content` could be read, and of the environment. An
empty path stands for the defaults. -/
def load (path : Bytes) (content : Except Bytes Bytes) (env : Bytes → Option Bytes) :
    Except LoadError Settings := do
  let fromFile ←
    if path.isEmpty then .ok {}
    else
      match content with
      | .error cause => .error (.unreadable cause)
      | .ok content => (parse content).map (resolveAll (Path.dir path))
  let settings := fromFile.withEnvironment env
  match settings.validate with
  | .error e => .error (.invalid e)
  | .ok () => .ok settings

end LintPool.Settings
