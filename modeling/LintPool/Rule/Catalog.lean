import LintPool.Analysis
import LintPool.Rule.Comparison
import LintPool.Rule.Condition
import LintPool.Rule.Property
import LintPool.Source.Mask

/-!
# The catalog of rules

A rule runs from a certain level on. The findings of a source text are those of all rules that run
at the level of the analysis, rule by rule, each located in the source.

## Main definitions

* `LintPool.Rule` : the rules.
* `LintPool.Rule.findings` : what a rule finds in a masked source text.
* `LintPool.Rule.check` : the findings of all rules of a level.
* `LintPool.Rule.analyse` : the analysis of a file.
-/

namespace LintPool

/-- The rules of the catalog, in the order in which they run. -/
inductive Rule where
  | constantCondition
  | strictComparison
  deriving DecidableEq

namespace Rule

/-- The version of the catalog. Results of another version do not count. -/
def version : Bytes := utf8 "2"

/-- The strictest level. -/
def maxLevel : Int64 := 9

/-- All rules. -/
def all : List Rule := [.constantCondition, .strictComparison]

/-- The lowest level at which a rule runs. -/
def level : Rule → Int64
  | .constantCondition => 4
  | .strictComparison => 4

/-- The finding at a hit, if there is anything to report of it. -/
def finding? {α : Type} (file : Bytes) (message? : α → Option Bytes) (hit : Source.Hit α) :
    Option Diagnostic :=
  (message? hit.value).map (Diagnostic.finding file (Int64.ofNat hit.line))

/-- What a rule finds in a masked source text. -/
def findings (file source : Bytes) : Rule → List Diagnostic
  | .constantCondition =>
    (Source.scan Condition.find? source).filterMap (finding? file Condition.message?)
  | .strictComparison =>
    (Source.scan Comparison.find? source).filterMap (finding? file Comparison.message?)

/-- What the rules of a level find in a masked source text. -/
def check (level : Int64) (file source : Bytes) : List Diagnostic :=
  (all.filter (·.level ≤ level)).flatMap (findings file source)

/-- Why a file could not be analysed. -/
inductive Failure where
  | cancelled
  /-- The file could not be read. -/
  | unreadable (cause : Bytes)
  deriving DecidableEq

/-- The message of a failure. -/
def Failure.message : Failure → Bytes
  | .cancelled => utf8 "context canceled"
  | .unreadable cause => utf8 "read source: " ++ cause

/-- What the analysis of a file comes to. -/
structure Findings where
  diagnostics : List Diagnostic
  /-- Whether property types could be inferred from a constructor. -/
  infer : Bool
  deriving DecidableEq

/-- The findings in the content of a file. -/
def analyseText (level : Int64) (file content : Bytes) : Findings :=
  let source := Source.mask content
  { diagnostics := check level file source, infer := infersProperties source }

/-- Analyses a file of which `content` could be read. -/
def analyse (level : Int64) (cancelled : Bool) (file : Bytes) (content : Except Bytes Bytes) :
    Except Failure Findings :=
  if cancelled then .error .cancelled
  else
    match content with
    | .error cause => .error (.unreadable cause)
    | .ok content => .ok (analyseText level file content)

/-- The rules of a level as an analyzer of the files that `read` gives the content of. -/
def analyzer (level : Int64) (read : Bytes → Except Bytes Bytes) : Analyzer := fun cancelled file =>
  match analyse level cancelled file (read file) with
  | .ok f => { outcome := .done f.diagnostics f.infer }
  | .error e => { outcome := .failed e.message }

end Rule

end LintPool
