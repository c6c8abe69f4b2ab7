import LintPool.Command.Flag
import LintPool.Text.EditDistance
import LintPool.Text.LowerCase

/-!
# The command line

The program has a command to analyse files and one to serve as a worker. The command may stand
anywhere on the command line, but an argument behind a flag counts as the value of the flag as long
as the command is not known.

## Main definitions

* `LintPool.CommandLine.AnalyseOptions`, `LintPool.CommandLine.WorkerOptions` : what the commands
  can be told.
* `LintPool.CommandLine.Invocation` : what is to be done.
* `LintPool.CommandLine.parse` : what a command line asks for.
-/

namespace LintPool.CommandLine

/-! ## Commands -/

/-- The options of the command that analyses files. -/
structure AnalyseOptions where
  configuration : Bytes := []
  level : Bytes := []
  autoloadFile : Bytes := []
  memoryLimit : Bytes := []
  /-- Whether files are analysed in the running process. -/
  debug : Bool := false
  noCache : Bool := false
  dashboard : Bool := false
  deriving DecidableEq

/-- The options of the command that serves as a worker. -/
structure WorkerOptions where
  paths : List Bytes := []
  pathsFile : Bytes := []
  configuration : Bytes := []
  level : Bytes := []
  autoloadFile : Bytes := []
  memoryLimit : Bytes := []
  allowDebugger : Bool := false
  port : Int := 0
  identifier : Bytes := []
  debug : Bool := false
  deriving DecidableEq

/-- What is to be done. -/
inductive Invocation where
  /-- Tell how the program is used. -/
  | help
  | analyse (options : AnalyseOptions) (paths : List Bytes)
  | worker (options : WorkerOptions)
  deriving DecidableEq

/-- The name of the program. -/
def program : Bytes := utf8 "phpscan"

/-- How the program is used. -/
def usage : Bytes :=
  utf8 ("Parallel static analysis for PHP\n\nUsage:\n  phpscan analyse [paths...] [flags]\n" ++
    "  phpscan worker --port port --identifier name [flags]\n")

/-- The commands of the program. -/
inductive Command where
  | analyse
  | worker
  | completion
  | help
  deriving DecidableEq

/-- All commands. -/
def Command.all : List Command := [.analyse, .worker, .completion, .help]

/-- The names of a command, the first of which is the usual one. -/
def Command.names : Command → List Bytes
  | .analyse => [utf8 "analyse", utf8 "analyze"]
  | .worker => [utf8 "worker"]
  | .completion => [utf8 "completion"]
  | .help => [utf8 "help"]

/-- Whether a command is suggested for a name that is close to its own. -/
def Command.isSuggested : Command → Bool
  | .analyse => true
  | .completion => true
  | .worker => false
  | .help => false

/-- The command of a name. -/
def Command.ofName? (name : Bytes) : Option Command :=
  Command.all.find? (·.names.contains name)

/-! ## Errors -/

/-- What is wrong with a command line. -/
inductive UsageError where
  | unknownCommand (name parent : Bytes) (suggestions : List Bytes)
  | flag (e : Flag.Error)
  | flagsMissing (names : List Bytes)
  deriving DecidableEq

/-- The names that may have been meant. -/
def UsageError.suggestionText (names : List Bytes) : Bytes :=
  if names.isEmpty then []
  else utf8 "\n\nDid you mean this?\n" ++ names.flatMap fun name => byte '\t' :: name ++ [byte '\n']

/-- The message of an error. -/
def UsageError.message : UsageError → Bytes
  | .unknownCommand name parent suggestions =>
    utf8 "unknown command " ++ quoted name ++ utf8 " for " ++ quoted parent ++
      suggestionText suggestions
  | .flag e => e.message
  | .flagsMissing names =>
    let listed := names.map fun name => byte '"' :: name ++ [byte '"']
    utf8 "required flag(s) " ++ Bytes.join (utf8 ", ") listed ++ utf8 " not set"

/-- The commands whose names are close to a given one: at most two bytes away, or longer. -/
def suggestions (name : Bytes) : List Bytes :=
  let wanted := LowerCase.lowerText name
  (Command.all.filter (·.isSuggested)).filterMap fun c => do
    let own ← c.names.head?
    if Bytes.editDistance wanted own ≤ 2 || wanted.isPrefixOf own then some own else none

/-! ## Finding the command -/

/-- Whether an argument is a flag that takes the next argument as its value, as long as nothing is
known about the flags of the command. -/
def takesNext (argument : Bytes) : Bool :=
  match argument with
  | a :: b :: rest =>
    a == byte '-' && (b == byte '-' || rest.isEmpty) && !argument.contains (byte '=')
  | _ => false

/-- The first argument that is neither a flag nor the value of one. A flag that is followed by one
last argument ends the search. -/
def commandName? : List Bytes → Option Bytes
  | [] => none
  | argument :: rest =>
    if argument == utf8 "--" then none
    else if takesNext argument then
      match rest with
      | _ :: next :: others => commandName? (next :: others)
      | _ => none
    else if argument.isEmpty || argument.head? == some (byte '-') then commandName? rest
    else some argument

/-- The arguments without the first one that is the name of the command. -/
def withoutName (name : Bytes) : List Bytes → List Bytes
  | [] => []
  | argument :: rest =>
    if argument == utf8 "--" then argument :: rest
    else if takesNext argument then
      match rest with
      | value :: others => argument :: value :: withoutName name others
      | [] => [argument]
    else if argument.head? != some (byte '-') && argument == name then rest
    else argument :: withoutName name rest

/-! ## Flags of the commands -/

/-- The flag for help, which every command has. -/
def helpFlag : Flag := { name := utf8 "help", letter := some (byte 'h'), kind := .switch }

/-- A flag for a text. -/
def textFlag (name : String) (letter : Option Char) : Flag :=
  { name := utf8 name, letter := letter.map byte, kind := .text }

/-- A switch. -/
def switchFlag (name : String) : Flag := { name := utf8 name, kind := .switch }

/-- The flags of the command that analyses files. -/
def analyseFlags : List Flag :=
  [textFlag "configuration" (some 'c'), textFlag "level" (some 'l'), textFlag "autoload-file" none,
    textFlag "memory-limit" none, switchFlag "debug", switchFlag "no-cache", switchFlag "dashboard",
    helpFlag]

/-- The flags of the command that serves as a worker. -/
def workerFlags : List Flag :=
  [{ name := utf8 "paths", kind := .list }, textFlag "paths-file" none,
    textFlag "configuration" (some 'c'), textFlag "level" (some 'l'), textFlag "autoload-file" none,
    textFlag "memory-limit" none, switchFlag "allow-debugger",
    { name := utf8 "port", kind := .integer }, textFlag "identifier" none, switchFlag "debug",
    helpFlag]

/-- The flags that a worker cannot do without. -/
def workerNeeds : List String := ["identifier", "port"]

/-- The options of the command that analyses files. -/
def AnalyseOptions.ofFlags (p : Flag.Parsed) : AnalyseOptions where
  configuration := p.text "configuration"
  level := p.text "level"
  autoloadFile := p.text "autoload-file"
  memoryLimit := p.text "memory-limit"
  debug := p.switch "debug"
  noCache := p.switch "no-cache"
  dashboard := p.switch "dashboard"

/-- The options of the command that serves as a worker. -/
def WorkerOptions.ofFlags (p : Flag.Parsed) : WorkerOptions where
  paths := p.list "paths"
  pathsFile := p.text "paths-file"
  configuration := p.text "configuration"
  level := p.text "level"
  autoloadFile := p.text "autoload-file"
  memoryLimit := p.text "memory-limit"
  allowDebugger := p.switch "allow-debugger"
  port := p.integer "port"
  identifier := p.text "identifier"
  debug := p.switch "debug"

/-- The flags of a command line, unless it asks for help. -/
def readFlags (flags : List Flag) (arguments : List Bytes) :
    Except UsageError (Option Flag.Parsed) :=
  match Flag.parse flags arguments with
  | .error e => .error (.flag e)
  | .ok p => .ok (if p.switch "help" then none else some p)

/-- The arguments of the command that analyses files. -/
def parseAnalyse (arguments : List Bytes) : Except UsageError Invocation := do
  match ← readFlags analyseFlags arguments with
  | none => return .help
  | some p => return .analyse (.ofFlags p) p.arguments

/-- The arguments of the command that serves as a worker. It takes nothing but flags. -/
def parseWorker (arguments : List Bytes) : Except UsageError Invocation := do
  match ← readFlags workerFlags arguments with
  | none => return .help
  | some p =>
    match p.arguments with
    | extra :: _ => .error (.unknownCommand extra (program ++ utf8 " worker") [])
    | [] =>
      let missing := workerNeeds.filter fun name => (p.value? name).isNone
      if missing.isEmpty then return .worker (.ofFlags p)
      else .error (.flagsMissing (missing.map utf8))

/-- What a command line asks for. -/
def parse (arguments : List Bytes) : Except UsageError Invocation :=
  match commandName? arguments with
  | none => do
    let _ ← readFlags [helpFlag] arguments
    return .help
  | some name =>
    match Command.ofName? name with
    | none => .error (.unknownCommand name program (suggestions name))
    | some .analyse => parseAnalyse (withoutName name arguments)
    | some .worker => parseWorker (withoutName name arguments)
    | some .completion => .ok .help
    | some .help => .ok .help

end LintPool.CommandLine
