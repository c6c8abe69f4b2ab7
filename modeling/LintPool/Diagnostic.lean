import LintPool.Json.Record

/-!
# Diagnostics

A diagnostic is a finding in a file, or the failure of a process when it is not specific to a file.
Its JSON form is a bare string if it holds nothing but a message, and an object otherwise.

## Main definitions

* `LintPool.Diagnostic` : a diagnostic.
* `LintPool.Diagnostic.finding`, `LintPool.Diagnostic.internalError`, `LintPool.Diagnostic.failure`
  : the three kinds that the program makes.
* `LintPool.Diagnostic.toJson`, `LintPool.Diagnostic.ofJson` : the JSON form and its reader.
-/

namespace LintPool

/-- A finding in a file, or a failure. -/
structure Diagnostic where
  message : Bytes
  file : Bytes := []
  line : Option Int64 := none
  /-- Whether it is a finding in `file`. -/
  isFileSpecific : Bool := false
  deriving DecidableEq

namespace Diagnostic

/-- A finding in a file; a line that is not positive means none. -/
def finding (file : Bytes) (line : Int64) (message : Bytes) : Diagnostic where
  message
  file
  line := if 0 < line then some line else none
  isFileSpecific := true

/-- The advice that ends the message of an internal error. -/
def hint : Bytes :=
  utf8 ("Run phpscan again with --debug to see the full trace, and report the failure along " ++
    "with the file that triggered it.")

/-- The diagnostic of a file that could not be analysed because of `cause`. -/
def internalError (file cause : Bytes) : Diagnostic where
  message :=
    utf8 "Internal error: " ++ cause ++ utf8 " while analysing file " ++ file ++ byte '\n' :: hint
  file

/-- The failure of a process. -/
def failure (message : Bytes) : Diagnostic := { message }

/-- Whether a diagnostic holds nothing but its message. -/
def isBare (d : Diagnostic) : Bool := d.file.isEmpty && d.line.isNone && !d.isFileSpecific

/-- The line for ordering; a missing line comes where line 0 would. -/
def lineKey (d : Diagnostic) : Int64 := d.line.getD 0

/-! ## JSON form -/

/-- The JSON form of a diagnostic. -/
def toJson (d : Diagnostic) : Json :=
  if d.isBare then .text d.message
  else
    .object <|
      [Json.member "message" (.text d.message), Json.member "file" (.text d.file)] ++
      (d.line.map fun n => Json.member "line" (.int n.toInt)).toList ++
      [Json.member "isFileSpecific" (.bool d.isFileSpecific)]

/-- Why a value is no diagnostic. -/
inductive ReadError where
  | mismatch (m : Json.Mismatch)
  | messageMissing
  deriving DecidableEq

/-- The message of a reading error. -/
def ReadError.message (w : Json.Wording) : ReadError → Bytes
  | .mismatch m => utf8 "diagnostic: " ++ m.message w
  | .messageMissing => utf8 "diagnostic: message is required"

/-- The members of a diagnostic's object form. -/
structure Parts where
  message : Option Bytes := none
  file : Bytes := []
  line : Option Int64 := none
  isFileSpecific : Bool := false

/-- The fields of a diagnostic's object form. -/
def fields : List (Json.Field Parts Empty) :=
  [.simple "message" Parts.message (fun p x => { p with message := x }) Json.Field.text?,
    .simple "file" Parts.file (fun p x => { p with file := x }) Json.Field.text,
    .simple "line" Parts.line (fun p x => { p with line := x }) Json.Field.integer?,
    .simple "isFileSpecific" Parts.isFileSpecific (fun p x => { p with isFileSpecific := x })
      Json.Field.flag]

/-- The diagnostic that a value means: a string means a failure, an object its members. -/
def ofJson : Json → Except ReadError Diagnostic
  | .string body => .ok (failure (Json.unescape body))
  | v =>
    match Json.readRecord .strict fields {} v with
    | .ok parts =>
      match parts.message with
      | some message =>
        .ok { message, file := parts.file, line := parts.line,
              isFileSpecific := parts.isFileSpecific }
      | none => .error .messageMissing
    | .error (.mismatch m) => .error (.mismatch m)

/-- Reads a list of diagnostics over an earlier one. -/
def readList (old : List Diagnostic) (items : List Json) :
    Except ReadError (Json.Slots Diagnostic) :=
  Json.readItems (fun _ v => ofJson v) { message := [] } [] old items

end Diagnostic

end LintPool
