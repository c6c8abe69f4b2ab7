import LintPool.Json.Reader
import LintPool.Text.CaseFold
import LintPool.Text.Quoted

/-!
# Reading records from JSON values

A record is read from an object by running over the members in order: each key is looked up among
the fields, regardless of case, and its value is read over what the field holds already. A later
member so replaces an earlier one, but a null leaves a plain field as it is and empties an optional
one. Reading ends at the first member that does not fit: its value has a wrong type, a part of it is
refused by a reader of its own, or a strict record has no field of its name.

The program does not word all of its errors itself. The texts that come with the reader and the
writer of JSON are a parameter, and nothing is assumed about them.

## Main definitions

* `LintPool.Json.Wording` : the texts of the errors that the program does not word itself.
* `LintPool.Json.Mismatch` : what can be wrong with a value.
* `LintPool.Json.Field` : a named field of a record.
* `LintPool.Json.readRecord` : reading a record.
* `LintPool.Json.Slots` : a list read from an array, with the items that an earlier array left
  behind.
-/

namespace LintPool.Json

/-! ## Errors -/

/-- The texts of the errors that the program does not word itself. -/
structure Wording where
  /-- A text is no JSON. -/
  malformed : (s : Bytes) → Bytes
  /-- In a record with the given fields, the value under a key has a wrong type; without a key, the
  value that should be the record. -/
  wrongType : (fields : List Bytes) → (key value : Bytes) → Bytes
  /-- A payload cannot be written. -/
  unwritable : (payload : Bytes) → Bytes

/-- Empty texts. -/
instance : Inhabited Wording := ⟨⟨fun _ => [], fun _ _ _ => [], fun _ => []⟩⟩

/-- What is wrong with a value that should become a record. -/
inductive Mismatch where
  /-- The value under a key has a type that its field does not take. The record is given by the
  names of its fields, the key by its body and the value by its compact text. -/
  | wrongType (fields : List Bytes) (key value : Bytes)
  /-- A strict record has no field of this name. -/
  | unknownField (name : Bytes)
  deriving DecidableEq

/-- The message of a mismatch. -/
def Mismatch.message (w : Wording) : Mismatch → Bytes
  | .wrongType fields key value => w.wrongType fields key value
  | .unknownField name => utf8 "json: unknown field " ++ quoted name

/-- Why a field does not take a value. -/
inductive Refusal (ε : Type) where
  | wrongType
  /-- A part of the value is refused by a reader of its own. -/
  | part (e : ε)

/-- Why a value does not become a record. -/
inductive Fault (ε : Type) where
  | mismatch (m : Mismatch)
  /-- A part of the value is refused by a reader of its own. -/
  | part (e : ε)

/-! ## Records -/

/-- A field of a record: its name and how a value is read into it. -/
structure Field (σ ε : Type) where
  name : Bytes
  set : σ → Json → Except (Refusal ε) σ

/-- The names of fields. -/
def namesOf {σ ε : Type} (fields : List (Field σ ε)) : List Bytes := fields.map (·.name)

/-- The field that a key names, regardless of case. -/
def lookupField {σ ε : Type} (fields : List (Field σ ε)) (key : Bytes) : Option (Field σ ε) :=
  fields.find? fun f => CaseFold.eqFold f.name key

/-- Whether unknown keys are mismatches. -/
inductive Strictness where
  | strict
  | lenient

/-- Why a value does not become a record, if its member is refused. -/
def Refusal.fault {ε : Type} (fields : List Bytes) (member : Bytes × Json) : Refusal ε → Fault ε
  | .wrongType => .mismatch (.wrongType fields member.1 member.2.print)
  | .part e => .part e

/-- The effect of one member of an object on a record. -/
def readMember {σ ε : Type} (mode : Strictness) (fields : List (Field σ ε)) (record : σ)
    (member : Bytes × Json) : Except (Fault ε) σ :=
  let key := unescape member.1
  match lookupField fields key, mode with
  | some f, _ => (f.set record member.2).mapError (·.fault (namesOf fields) member)
  | none, .strict => .error (.mismatch (.unknownField key))
  | none, .lenient => .ok record

/-- Reads a record over `initial`. A null leaves the record as it is. -/
def readRecord {σ ε : Type} (mode : Strictness) (fields : List (Field σ ε)) (initial : σ) :
    Json → Except (Fault ε) σ
  | .null => .ok initial
  | .object members => members.foldlM (readMember mode fields) initial
  | v => .error (.mismatch (.wrongType (namesOf fields) [] v.print))

/-! ## Kinds of fields -/

namespace Field

variable {σ ε : Type}

/-- A field that reads a value over the one it holds and can only meet a wrong type. -/
def simple {α : Type} (name : String) (get : σ → α) (put : σ → α → σ) (read : α → Json → Option α) :
    Field σ ε where
  name := utf8 name
  set record v :=
    match read (get record) v with
    | some x => .ok (put record x)
    | none => .error .wrongType

/-- Reads a text; null keeps the old one. -/
def text (old : Bytes) : Json → Option Bytes
  | .null => some old
  | .string body => some (unescape body)
  | _ => none

/-- Reads a truth value; null keeps the old one. -/
def flag (old : Bool) : Json → Option Bool
  | .null => some old
  | .bool b => some b
  | _ => none

/-- Reads a text that may be missing; null removes it. -/
def text? (_old : Option Bytes) : Json → Option (Option Bytes)
  | .null => some none
  | .string body => some (some (unescape body))
  | _ => none

/-- Reads a 64-bit integer that may be missing; null removes it. -/
def integer? (_old : Option Int64) : Json → Option (Option Int64)
  | .null => some none
  | .number literal => (Json.integer? literal).map some
  | _ => none

end Field

/-! ## Lists -/

/-- A list read from an array. Arrays that are read over an earlier one reuse its items, so the
items past the end of a shorter array are kept aside. -/
structure Slots (α : Type) where
  items : List α
  spare : List α := []

/-- The items to read a further array over. -/
def Slots.all {α : Type} (slots : Slots α) : List α := slots.items ++ slots.spare

/-- Reads the items of an array over the items `old`, each over its predecessor in the same place or
over `fresh`. `acc` holds the items read so far, last first. -/
def readItems {α ε : Type} (read : α → Json → Except ε α) (fresh : α) (acc : List α) :
    (old : List α) → List Json → Except ε (Slots α)
  | old, [] => .ok { items := acc.reverse, spare := if acc.isEmpty then [] else old }
  | [], v :: vs => do
    let x ← read fresh v
    readItems read fresh (x :: acc) [] vs
  | x :: old, v :: vs => do
    let y ← read x v
    readItems read fresh (y :: acc) old vs

end LintPool.Json
