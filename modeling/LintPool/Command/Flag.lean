import LintPool.Number.Numeral
import LintPool.Text.CommaList
import LintPool.Text.Quoted

/-!
# Command line flags

Flags are given as `--name value` or `--name=value`, and some by a letter as well. A switch needs no
value. Flags and other arguments may come in any order; two dashes alone end the flags.

## Main definitions

* `LintPool.Flag` : a flag that a command takes.
* `LintPool.Flag.Value` : the value of a flag.
* `LintPool.Flag.parse` : the flags and arguments of a command line.
-/

namespace LintPool

/-- The kinds of values. -/
inductive Flag.Kind where
  | text
  | switch
  | integer
  /-- A list, to which every use of the flag adds. -/
  | list
  deriving DecidableEq

/-- A flag that a command takes. -/
structure Flag where
  name : Bytes
  letter : Option UInt8 := none
  kind : Flag.Kind
  deriving DecidableEq

namespace Flag

/-- The value of a flag. -/
inductive Value where
  | text (s : Bytes)
  | switch (on : Bool)
  | integer (n : Int)
  | list (items : List Bytes)
  deriving DecidableEq

/-- Why a text is no value for a flag. -/
inductive ValueError where
  | notSwitch (text : Bytes)
  | notInteger (text : Bytes) (e : Numeral.IntegerError)
  | notList (e : CommaList.Error)
  deriving DecidableEq

/-- The message of a value error. -/
def ValueError.message : ValueError → Bytes
  | .notSwitch text =>
    utf8 "strconv.ParseBool: parsing " ++ quoted text ++ utf8 ": invalid syntax"
  | .notInteger text e =>
    utf8 "strconv.ParseInt: parsing " ++ quoted text ++ utf8 ": " ++ e.reason
  | .notList e => e.message

/-- What is wrong with the flags of a command line. -/
inductive Error where
  | malformed (argument : Bytes)
  | unknown (name : Bytes)
  | unknownLetter (letter : UInt8) (letters : Bytes)
  | valueMissing (name : Bytes)
  | letterValueMissing (letter : UInt8) (letters : Bytes)
  | badValue (flag : Flag) (text : Bytes) (e : ValueError)
  deriving DecidableEq

/-- A flag with both of its forms, as messages name it. -/
def title (flag : Flag) : Bytes :=
  match flag.letter with
  | some letter => byte '-' :: letter :: utf8 ", --" ++ flag.name
  | none => utf8 "--" ++ flag.name

/-- The message of an error. -/
def Error.message : Error → Bytes
  | .malformed argument => utf8 "bad flag syntax: " ++ argument
  | .unknown name => utf8 "unknown flag: --" ++ name
  | .unknownLetter letter letters =>
    utf8 "unknown shorthand flag: " ++ Quoted.single (Char.ofNat letter.toNat) ++ utf8 " in -" ++
      letters
  | .valueMissing name => utf8 "flag needs an argument: --" ++ name
  | .letterValueMissing letter letters =>
    utf8 "flag needs an argument: " ++ Quoted.single (Char.ofNat letter.toNat) ++ utf8 " in -" ++
      letters
  | .badValue flag text e =>
    utf8 "invalid argument " ++ quoted text ++ utf8 " for " ++ quoted flag.title ++
      utf8 " flag: " ++ e.message

/-- The flags that were given, with their values, and the other arguments in order. -/
structure Parsed where
  values : List (Bytes × Value) := []
  arguments : List Bytes := []

namespace Parsed

/-- The value of a flag, if it was given. -/
def value? (p : Parsed) (name : String) : Option Value := p.values.lookup (utf8 name)

/-- The text of a flag; empty if it was not given. -/
def text (p : Parsed) (name : String) : Bytes :=
  match p.value? name with
  | some (.text s) => s
  | _ => []

/-- Whether a switch is on. -/
def switch (p : Parsed) (name : String) : Bool :=
  match p.value? name with
  | some (.switch on) => on
  | _ => false

/-- The number of a flag; 0 if it was not given. -/
def integer (p : Parsed) (name : String) : Int :=
  match p.value? name with
  | some (.integer n) => n
  | _ => 0

/-- The items of a flag. -/
def list (p : Parsed) (name : String) : List Bytes :=
  match p.value? name with
  | some (.list items) => items
  | _ => []

end Parsed

/-! ## Reading values -/

/-- The texts that switch something on. -/
def onTexts : List Bytes := ["1", "t", "T", "true", "TRUE", "True"].map utf8

/-- The texts that switch something off. -/
def offTexts : List Bytes := ["0", "f", "F", "false", "FALSE", "False"].map utf8

/-- The value of a flag in a text, after the flag may have been given before. -/
def readValue (flag : Flag) (old : Option Value) (s : Bytes) : Except ValueError Value :=
  match flag.kind with
  | .text => .ok (.text s)
  | .switch =>
    if onTexts.contains s then .ok (.switch true)
    else if offTexts.contains s then .ok (.switch false)
    else .error (.notSwitch s)
  | .integer =>
    match Numeral.argument s with
    | .ok n => .ok (.integer n)
    | .error e => .error (.notInteger s e)
  | .list =>
    match CommaList.parse s, old with
    | .ok items, some (.list before) => .ok (.list (before ++ items))
    | .ok items, _ => .ok (.list items)
    | .error e, _ => .error (.notList e)

/-- Notes that a flag was given with a value. -/
def set (p : Parsed) (flag : Flag) (s : Bytes) : Except Error Parsed :=
  match readValue flag (p.values.lookup flag.name) s with
  | .ok value => .ok { p with values := (flag.name, value) :: p.values.filter (·.1 != flag.name) }
  | .error e => .error (.badValue flag s e)

/-! ## Reading arguments -/

/-- A flag by its full name, behind the two dashes. `next` is the argument that follows, and the
result says whether it was used up. -/
def long (flags : List Flag) (p : Parsed) (s : Bytes) (next : Option Bytes) :
    Except Error (Parsed × Bool) := do
  let first := s.head?
  if first = some (byte '-') ∨ first = some (byte '=') then .error (.malformed (utf8 "--" ++ s))
  let name := s.takeWhile (· ≠ byte '=')
  match flags.find? (·.name == name) with
  | none => .error (.unknown name)
  | some flag =>
    match s.dropWhile (· ≠ byte '=') with
    | _ :: value => return (← set p flag value, false)
    | [] =>
      if flag.kind = .switch then return (← set p flag (utf8 "true"), false)
      else
        match next with
        | some value => return (← set p flag value, true)
        | none => .error (.valueMissing name)

/-- Flags by their letters, behind the dash. The last one of them may take the following argument.
-/
def short (flags : List Flag) (p : Parsed) (letters : Bytes) (next : Option Bytes) :
    Except Error (Parsed × Bool) :=
  match letters with
  | [] => .ok (p, false)
  | letter :: rest =>
    match flags.find? (·.letter == some letter) with
    | none => .error (.unknownLetter letter letters)
    | some flag =>
      if rest.head? = some (byte '=') ∧ 1 < rest.length then do
        return (← set p flag (rest.drop 1), false)
      else if flag.kind = .switch then do
        let p ← set p flag (utf8 "true")
        short flags p rest next
      else if !rest.isEmpty then do
        return (← set p flag rest, false)
      else
        match next with
        | some value => do return (← set p flag value, true)
        | none => .error (.letterValueMissing letter letters)

/-- Whether an argument is a flag, by one dash or two. -/
inductive Shape where
  | plain
  | endOfFlags
  | long (s : Bytes)
  | short (letters : Bytes)

/-- The shape of an argument. A dash alone is no flag. -/
def shape (argument : Bytes) : Shape :=
  match argument with
  | a :: b :: rest =>
    if a ≠ byte '-' then .plain
    else if b ≠ byte '-' then .short (b :: rest)
    else if rest.isEmpty then .endOfFlags
    else .long rest
  | _ => .plain

/-- Reads arguments on top of what was read before. -/
def parseFrom (flags : List Flag) (p : Parsed) (arguments : List Bytes) : Except Error Parsed :=
  match arguments with
  | [] => .ok p
  | argument :: rest =>
    match shape argument with
    | .plain => parseFrom flags { p with arguments := p.arguments ++ [argument] } rest
    | .endOfFlags => .ok { p with arguments := p.arguments ++ rest }
    | .long s =>
      match long flags p s rest.head? with
      | .error e => .error e
      | .ok (p, used) => parseFrom flags p (if used then rest.drop 1 else rest)
    | .short letters =>
      match short flags p letters rest.head? with
      | .error e => .error e
      | .ok (p, used) => parseFrom flags p (if used then rest.drop 1 else rest)
termination_by arguments.length
decreasing_by
  all_goals simp only [List.length_cons]
  · omega
  · split <;> (try simp only [List.length_drop]) <;> omega
  · split <;> (try simp only [List.length_drop]) <;> omega

/-- The flags and arguments of a command line. -/
def parse (flags : List Flag) (arguments : List Bytes) : Except Error Parsed :=
  parseFrom flags {} arguments

end Flag

end LintPool
