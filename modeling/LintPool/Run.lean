import LintPool.Cache.Key
import LintPool.Cache.Store
import LintPool.Discovery.Finder
import LintPool.Pool.Job
import LintPool.Rule.Catalog
import LintPool.Summary

/-!
# Runs

A run finds the files below some roots, takes from the cache what is known about them, has the
others analysed by a job and keeps what that came to for later runs.

## Main definitions

* `LintPool.Runner` : how runs are done.
* `LintPool.Runner.lookUp` : what the cache knows about a file.
* `LintPool.Runner.keep` : the cache after a job.
* `LintPool.Runner.run` : a whole run.
-/

namespace LintPool

/-- How runs are done. -/
structure Runner where
  /-- The hash function for cache keys. -/
  hash : Bytes → Bytes := Blake2b.fingerprint
  /-- The version of the rules. -/
  version : Bytes := Rule.version
  level : Int64
  finder : Finder
  /-- How a job analyses files, which may be cancelled from the start. -/
  job : (cancelled : Bool) → (files : List Bytes) → Pool.Job

/-- What is known about a file before a job. -/
structure Lookup where
  file : Bytes
  /-- The size of the file; 0 if it could not be read. -/
  size : Nat := 0
  /-- The key of its outcome, if it could be read. -/
  key : Option Bytes := none
  /-- The outcome that the cache has for it. -/
  entry : Option Cache.Entry := none

/-- Why a run did not get to its job. -/
inductive RunError where
  | discovery (e : Finder.Error)
  /-- The run was cancelled while it asked the cache. -/
  | cancelled
  deriving DecidableEq

/-- The message of an error. -/
def RunError.message : RunError → Bytes
  | .discovery e => e.message
  | .cancelled => utf8 "cache lookup: context canceled"

/-- What a run comes to, and the cache after it. -/
structure Run where
  summary : Summary
  store : Cache.Store
  /-- The files that were analysed in the running process, in order. -/
  visited : List Bytes

namespace Runner

/-- The entry that a store serves for a key. What it cannot serve counts as missing. -/
def served (store : Cache.Store) (now : Cache.Instant) (key : Bytes) : Option Cache.Entry :=
  match store with
  | .none => none
  | .table t => ((t.get now key).toOption).join

/-- Whether asking a store fails because the run is cancelled. -/
def refuses (store : Cache.Store) (cancelled : Bool) : Bool :=
  match store with
  | .none => false
  | .table _ => cancelled

/-- The key under which the outcome for a file with some content is cached. -/
def keyOf (r : Runner) (file content : Bytes) : Bytes :=
  Cache.Subject.key r.hash { version := r.version, level := r.level, file, content }

/-- What is known about a file. -/
def lookUp (r : Runner) (tree : Tree) (store : Cache.Store) (now : Cache.Instant) (cancelled : Bool)
    (file : Bytes) : Except RunError Lookup :=
  match tree.read file with
  | .error _ => .ok { file }
  | .ok content =>
    if refuses store cancelled then .error .cancelled
    else
      let key := r.keyOf file content
      .ok { file, size := content.length, key := some key, entry := served store now key }

/-- The report of what the cache knows. -/
def cachedReport (lookups : List Lookup) : Report :=
  (lookups.filterMap (·.entry)).foldl
    (fun report e => report.merge { errors := e.diagnostics, files := 1, infer := e.infer }) {}

/-- The files that the cache does not know about. -/
def pending (lookups : List Lookup) : List Bytes :=
  (lookups.filter (·.entry.isNone)).map (·.file)

/-- Whether the analysis of a file failed. -/
def failed (report : Report) (file : Bytes) : Bool :=
  report.errors.any fun d => !d.isFileSpecific && d.file == file

/-- The outcome for a file that is kept. -/
def entryFor (report : Report) (file : Bytes) : Cache.Entry :=
  { diagnostics := report.errors.filter fun d => d.isFileSpecific && d.file == file }

/-- A table that also has the fresh outcome for a file, unless the file is known already, could not
be read or failed. -/
def keepOne (now : Cache.Instant) (report : Report) (t : Cache.Table) (l : Lookup) : Cache.Table :=
  match l.key, l.entry with
  | some key, none =>
    if failed report l.file then t
    else ((t.put now key (entryFor report l.file)).toOption).getD t
  | _, _ => t

/-- The cache after a job. A job that ended early leaves nothing behind, nor does a cancelled one.
-/
def keep (store : Cache.Store) (now : Cache.Instant) (lookups : List Lookup) (job : Pool.Job) :
    Cache.Store :=
  match store with
  | .none => .none
  | .table t =>
    if job.error.isSome || job.cancelled then .table t
    else .table (lookups.foldl (keepOne now job.report) t)

/-- A run over some roots. -/
def run (r : Runner) (tree : Tree) (store : Cache.Store) (now : Cache.Instant) (cancelled : Bool)
    (roots : List Bytes) : Except RunError Run :=
  match r.finder.find tree roots with
  | .error e => .error (.discovery e)
  | .ok files =>
    match files.mapM (r.lookUp tree store now cancelled) with
    | .error e => .error e
    | .ok lookups =>
      let waiting := pending lookups
      let job := if waiting.isEmpty then { cancelled } else r.job cancelled waiting
      let summary : Summary :=
        { files := files.length
          cached := Int64.ofNat (lookups.countP (·.entry.isSome))
          bytes := UInt64.ofNat (lookups.foldl (fun n l => n + l.size) 0)
          report := job.report.merge (cachedReport lookups)
          jobError := job.error }
      .ok { summary, store := keep store now lookups job, visited := job.visited }

/-- The rules of a level as an analyzer of the files of a tree. -/
def analyzerIn (tree : Tree) (level : Int64) : Analyzer :=
  Rule.analyzer level fun file => (tree.read file).mapError Tree.ReadError.message

end Runner

end LintPool
