import LintPool.Duration
import LintPool.Number.Numeral
import LintPool.Path
import LintPool.Rule.Catalog
import LintPool.Text.Blank
import LintPool.Text.CaseFold
import LintPool.Text.Quoted

/-!
# Settings

The settings of an analysis with their defaults, and what makes them valid.

## Main definitions

* `LintPool.Level.parse` : a rule level.
* `LintPool.Settings` : all settings.
* `LintPool.Settings.validate` : the first thing wrong with them.
-/

namespace LintPool

/-! ## Levels -/

/-- The text is no level. -/
structure Level.ParseError where
  text : Bytes
  deriving DecidableEq

/-- The message of a reading error. -/
def Level.ParseError.message (e : Level.ParseError) : Bytes :=
  utf8 "invalid configuration: level " ++ quoted e.text ++ utf8 " must be 0-" ++
    Bytes.decimal Rule.maxLevel.toInt ++ utf8 " or \"max\""

/-- A level, given as a number or as `max` in any case. -/
def Level.parse (s : Bytes) : Except Level.ParseError Int64 :=
  let s := Blank.trim s
  if CaseFold.eqFold s (utf8 "max") then .ok Rule.maxLevel
  else
    match Numeral.integer? s with
    | some n => if 0 ≤ n ∧ n ≤ Rule.maxLevel.toInt then .ok (Int64.ofInt n) else .error ⟨s⟩
    | none => .error ⟨s⟩

/-! ## All settings -/

/-- How the work is shared out. -/
structure Settings.Parallel where
  maxProcesses : Int64 := 1
  jobSize : Int64 := 20
  minJobsPerProcess : Int64 := 2
  processTimeout : Duration := .ofSeconds 600
  handshakeTimeout : Duration := .ofSeconds 30
  retries : Int64 := 1

/-- Where results are kept. -/
structure Settings.ResultCache where
  driver : Bytes := utf8 "sqlite"
  path : Bytes := utf8 ".phpscan/cache.db"
  redisAddr : Bytes := utf8 "localhost:6379"
  redisPassword : Bytes := []
  redisDB : Int64 := 0
  /-- How long a result counts; for ever if it is zero. -/
  ttl : Duration := .ofSeconds 604800

/-- The dashboard. -/
structure Settings.Dashboard where
  enabled : Bool := false
  address : Bytes := utf8 "127.0.0.1:8095"

/-- The settings of an analysis. -/
structure Settings where
  level : Int64 := 0
  paths : List Bytes := []
  excludePaths : List Bytes := []
  fileExtensions : List Bytes := [utf8 "php"]
  parallel : Settings.Parallel := {}
  resultCache : Settings.ResultCache := {}
  /-- Where the history of jobs is kept; nowhere if it is empty. -/
  historyDsn : Bytes := []
  dashboard : Settings.Dashboard := {}

namespace Settings

/-- What is wrong with settings. -/
inductive Invalid where
  | level
  | noExtensions
  | maxProcesses
  | jobSize
  | minJobsPerProcess
  | negativeTimeout
  | negativeRetries
  | cachePathMissing
  | cacheAddressMissing
  | unknownCacheDriver (driver : Bytes)
  | negativeTtl
  | dashboardAddressMissing
  deriving DecidableEq

/-- What a message says is wrong. -/
def Invalid.reason : Invalid → Bytes
  | .level => utf8 "level must be between 0 and " ++ Bytes.decimal Rule.maxLevel.toInt
  | .noExtensions => utf8 "fileExtensions must not be empty"
  | .maxProcesses => utf8 "parallel.maximumNumberOfProcesses must be at least 1"
  | .jobSize => utf8 "parallel.jobSize must be at least 1"
  | .minJobsPerProcess => utf8 "parallel.minimumNumberOfJobsPerProcess must be at least 1"
  | .negativeTimeout => utf8 "parallel timeouts must not be negative"
  | .negativeRetries => utf8 "parallel.retries must not be negative"
  | .cachePathMissing => utf8 "resultCache.path is required for the sqlite driver"
  | .cacheAddressMissing => utf8 "resultCache.redisAddr is required for the redis driver"
  | .unknownCacheDriver driver => utf8 "unknown resultCache.driver " ++ quoted driver
  | .negativeTtl => utf8 "resultCache.ttl must not be negative"
  | .dashboardAddressMissing => utf8 "dashboard.address is required when the dashboard is enabled"

/-- The message about invalid settings. -/
def Invalid.message (e : Invalid) : Bytes := utf8 "invalid configuration: " ++ e.reason

/-- What is wrong with the choice of a cache. -/
def ResultCache.validate (c : ResultCache) : Except Invalid Unit :=
  if c.driver = utf8 "none" ∨ c.driver = [] then .ok ()
  else if c.driver = utf8 "sqlite" then
    (if c.path.isEmpty then .error .cachePathMissing else .ok ())
  else if c.driver = utf8 "redis" then
    (if c.redisAddr.isEmpty then .error .cacheAddressMissing else .ok ())
  else .error (.unknownCacheDriver c.driver)

/-- The first thing wrong with settings. -/
def validate (s : Settings) : Except Invalid Unit := do
  if s.level < 0 ∨ Rule.maxLevel < s.level then .error .level
  if s.fileExtensions.isEmpty then .error .noExtensions
  if s.parallel.maxProcesses < 1 then .error .maxProcesses
  if s.parallel.jobSize < 1 then .error .jobSize
  if s.parallel.minJobsPerProcess < 1 then .error .minJobsPerProcess
  if s.parallel.processTimeout < 0 ∨ s.parallel.handshakeTimeout < 0 then .error .negativeTimeout
  if s.parallel.retries < 0 then .error .negativeRetries
  s.resultCache.validate
  if s.resultCache.ttl < 0 then .error .negativeTtl
  if s.dashboard.enabled && s.dashboard.address.isEmpty then .error .dashboardAddressMissing

/-- A path of a settings file, seen from where the program runs. Relative paths count from the
directory of the file. -/
def resolve (base path : Bytes) : Bytes :=
  if Path.isAbsolute path then path else Path.join base path

/-- The settings of a file in the directory `base`, with all paths resolved. -/
def resolveAll (base : Bytes) (s : Settings) : Settings :=
  { s with
    paths := s.paths.map (resolve base)
    excludePaths := s.excludePaths.map (resolve base)
    resultCache := { s.resultCache with
      path := if s.resultCache.path.isEmpty then [] else resolve base s.resultCache.path } }

/-- A value of the environment; an empty one counts as missing. -/
def given? (env : Bytes → Option Bytes) (name : String) : Option Bytes :=
  match env (utf8 name) with
  | some value => if value.isEmpty then none else some value
  | none => none

/-- The variables of the environment that have a meaning. -/
def variableNames : List String :=
  ["PHPSCAN_WORKERS", "PHPSCAN_REDIS_ADDR", "PHPSCAN_REDIS_PASSWORD", "PHPSCAN_HISTORY_DSN"]

/-- The settings with what the environment says in place of some. A number of workers that cannot be
read is ignored. -/
def withEnvironment (env : Bytes → Option Bytes) (s : Settings) : Settings :=
  let workers := (given? env "PHPSCAN_WORKERS").bind Numeral.integer?
  { s with
    parallel := { s.parallel with
      maxProcesses := (workers.map Int64.ofInt).getD s.parallel.maxProcesses }
    resultCache := { s.resultCache with
      redisAddr := (given? env "PHPSCAN_REDIS_ADDR").getD s.resultCache.redisAddr
      redisPassword := (given? env "PHPSCAN_REDIS_PASSWORD").getD s.resultCache.redisPassword }
    historyDsn := (given? env "PHPSCAN_HISTORY_DSN").getD s.historyDsn }

end Settings

end LintPool
