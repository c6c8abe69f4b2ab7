import LintPool.Cache.Archive
import LintPool.Command.Line
import LintPool.Discovery.PathList
import LintPool.MemoryLimit
import LintPool.Report.Text
import LintPool.Run
import LintPool.Settings.Location
import LintPool.Settings.Reader

/-!
# Commands

What the commands of the program do in their surroundings: the files and the working directory, the
environment, the clock, and what becomes of worker processes and connections.

## Main definitions

* `LintPool.Surroundings` : where the program runs.
* `LintPool.CommandResult` : what a command comes to.
* `LintPool.analyseCommand`, `LintPool.workerCommand` : the two commands.
* `LintPool.execute` : a whole command line.
-/

namespace LintPool

/-- Where the program runs. -/
structure Surroundings where
  /-- The files, and the working directory. -/
  tree : Tree
  environment : Bytes → Option Bytes
  now : Cache.Instant
  /-- What becomes of a worker process. -/
  fate : Pool.WorkerId → Pool.Fate
  /-- Why a worker cannot connect. -/
  connectError : Bytes

/-- What a command comes to. -/
structure CommandResult where
  /-- The exit code. -/
  code : UInt32 := 0
  /-- Whether it was asked how the program is used. -/
  help : Bool := false
  /-- What is reported on a run. -/
  summary : Option Summary := none
  /-- What is told on the error stream. -/
  complaint : Option Bytes := none
  /-- A file that was written, with its content. -/
  written : Option (Bytes × Bytes) := none

namespace CommandResult

/-- A command that could not start. -/
def refused (complaint : Bytes) : CommandResult := { code := 1, complaint := some complaint }

/-- What is printed when the run took some time. -/
def stdout (r : CommandResult) (elapsed : Duration) : Bytes :=
  match r.summary with
  | some s => Summary.text { s with elapsed }
  | none => if r.help then CommandLine.usage else []

/-- The text on the error stream. -/
def stderr (r : CommandResult) : Bytes :=
  match r.complaint with
  | some complaint => CommandLine.program ++ utf8 ": " ++ complaint ++ [byte '\n']
  | none => []

/-- The files after the command. -/
def treeAfter (r : CommandResult) (tree : Tree) : Tree :=
  match r.written with
  | some (path, content) => tree.write path (.file content)
  | none => tree

end CommandResult

namespace Surroundings

/-- The settings that hold for a command. -/
def settings (w : Surroundings) (configuration : Bytes) : Except Bytes Settings :=
  let path := Settings.locate w.tree configuration
  let content := (w.tree.read path).mapError Tree.ReadError.message
  (Settings.load path content w.environment).mapError Settings.LoadError.message

/-- The level of the rules: the one that is asked for, or else that of the settings. -/
def levelOf (settings : Settings) (asked : Bytes) : Except Bytes Int64 :=
  if asked.isEmpty then .ok settings.level
  else (Level.parse asked).mapError Level.ParseError.message

/-- Checks a memory limit, if there is one. -/
def checkMemoryLimit (limit : Bytes) : Except Bytes Unit :=
  if limit.isEmpty then .ok ()
  else
    match MemoryLimit.parse limit with
    | .ok _ => .ok ()
    | .error e => .error e.message

/-! ## The cache between runs -/

/-- The name of a store that lives as long as the program. -/
def inMemory : Bytes := utf8 ":memory:"

/-- The table that is kept in a file, if it can be kept there. -/
def tableAt? (w : Surroundings) (path : Bytes) (ttl : Duration) : Option Cache.Table :=
  if path == inMemory then some { ttl }
  else
    let placed : Bool :=
      match w.tree.find true (Path.dir path) with
      | .ok place => place.isDir
      | .error fault => fault == .missing
    if !placed then none
    else
      match w.tree.find true path with
      | .ok (.file content readable) =>
        if readable then Cache.Table.ofArchive? ttl content else none
      | .ok _ => none
      | .error fault => if fault == .missing then some { ttl } else none

/-- The store that results are kept in. One that cannot be opened is done without. Expired rows are
taken away first. -/
def openStore (w : Surroundings) (c : Settings.ResultCache) (disabled : Bool) : Cache.Store :=
  if disabled then .none
  else
    match Cache.Store.«open» c.driver c.ttl with
    | .ok (.table _) =>
      match w.tableAt? c.path c.ttl with
      | some t => .table (((t.prune w.now).toOption.map (·.1)).getD t)
      | none => .none
    | _ => .none

/-- The file that keeps a store until the next run. Only files below the working directory are kept.
-/
def kept (c : Settings.ResultCache) (store : Cache.Store) : Option (Bytes × Bytes) :=
  match store with
  | .none => none
  | .table t =>
    let inside := !Path.isAbsolute c.path && !(Tree.names c.path).contains Path.up
    if inside && c.path != inMemory then some (c.path, t.archive) else none

end Surroundings

/-! ## Analysing files -/

/-- How the settings share out the work. -/
def Settings.poolOptions (s : Settings) (verbose : Bool) : Pool.Options where
  maxProcesses := s.parallel.maxProcesses
  jobSize := s.parallel.jobSize
  minJobsPerProcess := s.parallel.minJobsPerProcess
  processTimeout := s.parallel.processTimeout
  handshakeTimeout := s.parallel.handshakeTimeout
  retries := s.parallel.retries
  verbose

/-- The arguments that a worker process gets. The path of the settings is made absolute. -/
def workerArguments (directory configuration : Bytes) (level : Int64)
    (o : CommandLine.AnalyseOptions) : List Bytes :=
  let absolute :=
    if Path.isAbsolute configuration then Path.clean configuration
    else Path.join directory configuration
  (if configuration.isEmpty then [] else [utf8 "--configuration=" ++ absolute]) ++
  [utf8 "--level=" ++ Bytes.decimal level.toInt] ++
  (if o.autoloadFile.isEmpty then [] else [utf8 "--autoload-file=" ++ o.autoloadFile]) ++
  (if o.memoryLimit.isEmpty then [] else [utf8 "--memory-limit=" ++ o.memoryLimit]) ++
  (if o.debug then [utf8 "--debug"] else [])

/-- How a run is done: in the running process for debugging, and by worker processes otherwise. -/
def runnerFor (w : Surroundings) (settings : Settings) (level : Int64) (debug : Bool) : Runner where
  level
  finder := { extensions := settings.fileExtensions, excluded := settings.excludePaths }
  job :=
    let options := settings.poolOptions debug
    if debug then Pool.analyseHere options.jobSize (Runner.analyzerIn w.tree level)
    else Pool.coordinateUnconnected options w.fate none

/-- The command that analyses files. -/
def analyseCommand (w : Surroundings) (o : CommandLine.AnalyseOptions) (paths : List Bytes) :
    CommandResult :=
  let prepared : Except Bytes (Settings × Int64 × List Bytes) := do
    let settings ← w.settings o.configuration
    let level ← Surroundings.levelOf settings o.level
    Surroundings.checkMemoryLimit o.memoryLimit
    let paths := if paths.isEmpty then settings.paths else paths
    if paths.isEmpty then .error Finder.Error.noRoots.message
    return (settings, level, paths)
  match prepared with
  | .error complaint => .refused complaint
  | .ok (settings, level, paths) =>
    let store := w.openStore settings.resultCache o.noCache
    match (runnerFor w settings level o.debug).run w.tree store w.now false paths with
    | .error e =>
      { CommandResult.refused e.message with
        written := Surroundings.kept settings.resultCache store }
    | .ok run =>
      let verdict := run.summary.verdict
      { code := verdict.code
        summary := some run.summary
        complaint := verdict.complaint?
        written := Surroundings.kept settings.resultCache run.store }

/-! ## Serving as a worker -/

/-- Checks that all paths lead somewhere. -/
def checkPaths (tree : Tree) : List Bytes → Except Bytes Unit
  | [] => .ok ()
  | path :: paths =>
    match tree.find true path with
    | .ok _ => checkPaths tree paths
    | .error fault => .error (Finder.Error.badRoot path fault).message

/-- Checks the file that is to be loaded before the analysis. -/
def checkAutoload (tree : Tree) (file : Bytes) : Except Bytes Unit :=
  if file.isEmpty then .ok ()
  else
    match tree.read file with
    | .ok _ => .ok ()
    | .error (.directory path) => .error (utf8 "autoload file " ++ path ++ utf8 " is a directory")
    | .error e => .error (utf8 "autoload file: " ++ e.message)

/-- The paths that a worker is told about. -/
def workerPaths (tree : Tree) (o : CommandLine.WorkerOptions) : Except Bytes (List Bytes) :=
  if o.pathsFile.isEmpty then .ok o.paths
  else
    match PathList.load (tree.read o.pathsFile) with
    | .ok listed => .ok (o.paths ++ listed)
    | .error e => .error e.message

/-- What a worker checks before it connects. -/
def checkWorker (w : Surroundings) (o : CommandLine.WorkerOptions) : Except Bytes Unit := do
  if o.port < 1 ∨ 65535 < o.port then
    .error (utf8 "--port " ++ Bytes.decimal o.port ++ utf8 " out of range")
  if o.identifier.isEmpty then .error (utf8 "--identifier must not be empty")
  let settings ← w.settings o.configuration
  let _ ← Surroundings.levelOf settings o.level
  let paths ← workerPaths w.tree o
  checkPaths w.tree paths
  checkAutoload w.tree o.autoloadFile
  Surroundings.checkMemoryLimit o.memoryLimit

/-- The message of a worker that cannot connect. -/
def connectMessage (port : Int) (cause : Bytes) : Bytes :=
  let address := utf8 "127.0.0.1:" ++ Bytes.decimal port
  utf8 "connect to coordinator " ++ address ++ utf8 ": dial tcp " ++ address ++
    utf8 ": connect: " ++ cause

/-- The command that serves as a worker, where no connection can be made. -/
def workerCommand (w : Surroundings) (o : CommandLine.WorkerOptions) : CommandResult :=
  match checkWorker w o with
  | .error complaint => .refused complaint
  | .ok () => .refused (connectMessage o.port w.connectError)

/-- What a command line comes to. -/
def execute (w : Surroundings) (arguments : List Bytes) : CommandResult :=
  match CommandLine.parse arguments with
  | .error e => .refused e.message
  | .ok .help => { help := true }
  | .ok (.analyse options paths) => analyseCommand w options paths
  | .ok (.worker options) => workerCommand w options

end LintPool
