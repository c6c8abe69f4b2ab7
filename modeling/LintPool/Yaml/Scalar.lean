import LintPool.Number.Numeral
import LintPool.Yaml.Node

/-!
# What plain scalars mean

A scalar in quotes is a text. A plain one may be the null value, a boolean, an integer in one of
several notations or a decimal fraction, and is a text otherwise.

## Main definitions

* `LintPool.Yaml.Scalar` : the meaning of a scalar.
* `LintPool.Yaml.Scalar.resolve` : the meaning of a plain scalar.
* `LintPool.Yaml.Scalar.integer?`, `LintPool.Yaml.Scalar.flag?` : a meaning as a 64-bit integer or a
  boolean.
-/

namespace LintPool.Yaml

/-- The meaning of a scalar. -/
inductive Scalar where
  | null
  | bool (b : Bool)
  /-- An integer of 64 bits, signed or unsigned. -/
  | int (n : Int)
  /-- A binary fraction. -/
  | float (negative : Bool) (magnitude : Binary64)
  | infinite (negative : Bool)
  | notANumber
  | text (s : Bytes)

namespace Scalar

/-- The plain scalars with a meaning of their own. -/
def words : List (Bytes × Scalar) :=
  [([], .null), (utf8 "~", .null), (utf8 "null", .null), (utf8 "Null", .null), (utf8 "NULL", .null),
    (utf8 "true", .bool true), (utf8 "True", .bool true), (utf8 "TRUE", .bool true),
    (utf8 "false", .bool false), (utf8 "False", .bool false), (utf8 "FALSE", .bool false),
    (utf8 ".nan", .notANumber), (utf8 ".NaN", .notANumber), (utf8 ".NAN", .notANumber),
    (utf8 ".inf", .infinite false), (utf8 ".Inf", .infinite false), (utf8 ".INF", .infinite false),
    (utf8 "+.inf", .infinite false), (utf8 "+.Inf", .infinite false),
    (utf8 "+.INF", .infinite false), (utf8 "-.inf", .infinite true), (utf8 "-.Inf", .infinite true),
    (utf8 "-.INF", .infinite true)]

/-- A number with a prefix for its base, whose digits may have a sign of their own. -/
def prefixed? (lead : String) (base : Nat) (s : Bytes) : Option Int :=
  match Bytes.dropPrefix? (utf8 lead) s with
  | some digits =>
    Numeral.inBase? base digits <|> do
      let n ← Numeral.digits? base digits
      if n < Nat.pow 2 64 then some (n : Int) else none
  | none => do
    let digits ← Bytes.dropPrefix? (byte '-' :: utf8 lead) s
    Numeral.inBase? base (byte '-' :: digits)

/-- A decimal fraction. -/
def float? (s : Bytes) : Option Scalar := do
  let d ← Numeral.Decimal.parse? s
  let m ← d.magnitude?
  return .float d.negative m

/-- A number that starts with a digit or a sign; underscores between digits do not count. -/
def number? (s : Bytes) : Option Scalar :=
  let s := s.filter (· ≠ byte '_')
  ((Numeral.literal? s).map .int) <|>
    ((Numeral.unsigned? s).map fun n => .int n) <|>
    float? s <|>
    ((prefixed? "0b" 2 s).map .int) <|>
    ((prefixed? "0o" 8 s).map .int)

/-- The meaning of a plain scalar. -/
def resolve (s : Bytes) : Scalar :=
  match words.lookup s with
  | some meaning => meaning
  | none =>
    match s with
    | [] => .null
    | b :: _ =>
      let number : Option Scalar :=
        if b = byte '.' then float? s
        else if Bytes.isDigit b || b == byte '+' || b == byte '-' then number? s
        else none
      number.getD (.text s)

/-- A fraction cut to an integer of 64 bits. What lies outside of the range becomes the least one,
except that a fraction above it is refused. -/
def cut? (negative : Bool) (magnitude : Binary64) : Option Int64 :=
  let n := magnitude.truncate
  if negative then some (if n ≤ Nat.pow 2 63 then Int64.ofInt (-(n : Int)) else Int64.minValue)
  else if n ≤ Nat.pow 2 63 then some (Int64.ofNat n)
  else none

/-- A meaning as an integer of 64 bits. -/
def integer? : Scalar → Option Int64
  | .int n => if n ≤ Int64.maxValue.toInt then some (Int64.ofInt n) else none
  | .float negative magnitude => cut? negative magnitude
  | .infinite true => some Int64.minValue
  | _ => none

/-- The texts that stand for true where a boolean is asked for. -/
def yes : List Bytes := ["y", "Y", "yes", "Yes", "YES", "on", "On", "ON"].map utf8

/-- The texts that stand for false where a boolean is asked for. -/
def no : List Bytes := ["n", "N", "no", "No", "NO", "off", "Off", "OFF"].map utf8

/-- A meaning as a boolean. -/
def flag? : Scalar → Option Bool
  | .bool b => some b
  | .text s => if yes.contains s then some true else if no.contains s then some false else none
  | _ => none

end Scalar

/-- The meaning of a scalar, plain or in quotes. -/
def Scalar.of (plain : Bool) (text : Bytes) : Scalar :=
  if plain then Scalar.resolve text else .text text

end LintPool.Yaml
