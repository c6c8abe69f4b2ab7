import LintPool.Diagnostic

/-!
# Cached outcomes

What the analysis of one file came to, as it is kept in a cache: a JSON object.

## Main definitions

* `LintPool.Cache.Entry` : a cached outcome.
* `LintPool.Cache.Entry.encode`, `LintPool.Cache.Entry.decode` : its text and the reader of it.
-/

namespace LintPool.Cache

/-- The outcome of analysing one file. -/
structure Entry where
  diagnostics : List Diagnostic := []
  /-- Whether property types could be inferred from a constructor. -/
  infer : Bool := false
  deriving DecidableEq

namespace Entry

/-- The JSON form of an entry. -/
def toJson (e : Entry) : Json :=
  .object
    [Json.member "diagnostics" (.array (e.diagnostics.map Diagnostic.toJson)),
      Json.member "hasInferrablePropertyTypesFromConstructor" (.bool e.infer)]

/-- The text of an entry. -/
def encode (e : Entry) : Bytes := e.toJson.print

/-- Why a text is no entry. -/
inductive ReadError where
  /-- This text is no JSON. -/
  | malformed (s : Bytes)
  | mismatch (m : Json.Mismatch)
  | diagnostic (e : Diagnostic.ReadError)
  deriving DecidableEq

/-- The message of a reading error. -/
def ReadError.message (w : Json.Wording) (e : ReadError) : Bytes :=
  utf8 "decode cache entry: " ++
    match e with
    | .malformed s => w.malformed s
    | .mismatch m => m.message w
    | .diagnostic e => e.message w

/-- The members of an entry. -/
structure Parts where
  diagnostics : Json.Slots Diagnostic := { items := [], spare := [] }
  infer : Bool := false

/-- The field with the diagnostics of an entry. -/
def diagnosticsField : Json.Field Parts Diagnostic.ReadError where
  name := utf8 "diagnostics"
  set parts v :=
    match v with
    | .null => .ok { parts with diagnostics := { items := [], spare := [] } }
    | .array items =>
      match Diagnostic.readList parts.diagnostics.all items with
      | .ok slots => .ok { parts with diagnostics := slots }
      | .error e => .error (.part e)
    | _ => .error .wrongType

/-- The fields of an entry. -/
def fields : List (Json.Field Parts Diagnostic.ReadError) :=
  [diagnosticsField,
    .simple "hasInferrablePropertyTypesFromConstructor" Parts.infer
      (fun p x => { p with infer := x }) Json.Field.flag]

/-- The entry of a text. Members that an entry does not have are passed over. -/
def decode (s : Bytes) : Except ReadError Entry :=
  match Json.parse? s with
  | none => .error (.malformed s)
  | some v =>
    match Json.readRecord .lenient fields {} v with
    | .error (.mismatch m) => .error (.mismatch m)
    | .error (.part e) => .error (.diagnostic e)
    | .ok parts => .ok { diagnostics := parts.diagnostics.items, infer := parts.infer }

end Entry

end LintPool.Cache
