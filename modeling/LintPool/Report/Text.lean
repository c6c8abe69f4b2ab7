import LintPool.Number.ByteSize
import LintPool.Number.Grouped
import LintPool.Summary

/-!
# The text of a report

A report is printed as its findings file by file, then its failures, and at last a few words on the
run.

## Main definitions

* `LintPool.Report.findingLines` : the lines for findings.
* `LintPool.Report.failureLines` : the lines for failures.
* `LintPool.Summary.text` : the whole text.
-/

namespace LintPool

namespace Report

/-- A text filled up with blanks in front. -/
def padLeft (width : Nat) (s : Bytes) : Bytes :=
  List.replicate (width - s.length) (byte ' ') ++ s

/-- The heading of a file: its name, and a rule of the same length. -/
def heading (file : Bytes) : List Bytes :=
  [byte ' ' :: file, byte ' ' :: List.replicate file.length (byte '-')]

/-- The line for a finding. -/
def findingLine (d : Diagnostic) : Bytes :=
  let line := (d.line.map fun n => Bytes.decimal n.toInt).getD (utf8 "-")
  utf8 "  " ++ padLeft 6 line ++ utf8 "  " ++ d.message

/-- The blank line behind the findings of a file. -/
def gap (file : Bytes) : List Bytes := if file.isEmpty then [] else [[]]

/-- The lines for findings in order, after some findings of the file `current`. Each file has a
heading and a blank line at its end; a file without a name has neither. -/
def groupLines (current : Bytes) : List Diagnostic → List Bytes
  | [] => gap current
  | d :: ds =>
    if d.file = current then findingLine d :: groupLines current ds
    else gap current ++ heading d.file ++ findingLine d :: groupLines d.file ds

/-- The lines for all findings of a report. -/
def findingLines (r : Report) : List Bytes := groupLines [] r.fileErrors

/-- The lines for a failure. Its message may have several lines. -/
def failureItem (d : Diagnostic) : List Bytes :=
  let message := (d.message.reverse.dropWhile (· = byte '\n')).reverse
  match Bytes.splitOn (byte '\n') message with
  | [] => []
  | first :: others => (utf8 "  - " ++ first) :: others.map (utf8 "    " ++ ·)

/-- The lines for all failures of a report. -/
def failureLines (r : Report) : List Bytes :=
  if r.otherErrors.isEmpty then []
  else
    (utf8 " Internal errors (" ++ Bytes.decimal r.internal.toInt ++ utf8 "):") ::
      r.otherErrors.flatMap failureItem ++ [[]]

/-- Whether a report is announced as free of errors. -/
def isOk (r : Report) : Bool := r.fileErrors.isEmpty && r.internal = 0

/-- A count with the noun that fits it. -/
def counted (n : Int) (one many : String) : Bytes :=
  Bytes.grouped n ++ byte ' ' :: utf8 (if n = 1 then one else many)

/-- The line that sums up the findings, if there is one. -/
def outcomeLines (r : Report) : List Bytes :=
  if r.isOk then [utf8 " [OK] No errors"]
  else if r.fileErrors.isEmpty then []
  else [utf8 " [ERROR] Found " ++ counted r.fileErrors.length "error" "errors"]

end Report

namespace Summary

/-- The line on the amount of work. -/
def workLine (s : Summary) : Bytes :=
  utf8 " Analysed " ++ Report.counted s.report.files.toInt "file" "files" ++ utf8 " (" ++
    ByteSize.render s.bytes.toNat ++
    (if 0 < s.cached then utf8 ", " ++ Bytes.grouped s.cached.toInt ++ utf8 " from cache"
      else []) ++
    utf8 ") in " ++ (s.elapsed.round 1000000).render

/-- The lines of the text of a run. -/
def lines (s : Summary) : List Bytes :=
  Report.findingLines s.report ++ Report.failureLines s.report ++ Report.outcomeLines s.report ++
    [s.workLine]

/-- The text of a run. -/
def text (s : Summary) : Bytes := s.lines.flatMap (· ++ [byte '\n'])

end Summary

end LintPool
