import LintPool.Json.Token

/-!
# Reading JSON values

The reader goes over the tokens of a text once. It keeps the containers that are still open on a
stack, the innermost first, and knows what it waits for; every token moves it on or is an error.
Nesting is limited to ten thousand containers.

## Main definitions

* `LintPool.Json.Frame` : an open container.
* `LintPool.Json.Await` : what the reader waits for.
* `LintPool.Json.step?` : the effect of one token.
* `LintPool.Json.read?` : the first value of a text and what follows it.
* `LintPool.Json.parse?` : the value of a whole text.
-/

namespace LintPool.Json

/-- A container whose end has not been read. What it holds is kept last first. -/
inductive Frame where
  | array (items : List Json)
  /-- An object; `key` is the key whose value is being read. -/
  | object (members : List (Bytes × Json)) (key : Bytes)

/-- What the reader waits for. -/
inductive Await where
  /-- A value. -/
  | value
  /-- The first item of an array, or its end. -/
  | item
  /-- The first key of an object, or its end. -/
  | member
  /-- A further key of an object. -/
  | key
  /-- The colon after a key. -/
  | colon (key : Bytes)
  /-- Whatever may follow a complete value: a comma or the end of the container. -/
  | next (value : Json)

/-- The greatest number of containers open at once. -/
def maxDepth : Nat := 10000

/-- Opens a container, unless too many are open. -/
def push? (frame : Frame) (await : Await) (stack : List Frame) : Option (List Frame × Await) :=
  if stack.length < maxDepth then some (frame :: stack, await) else none

/-- The start of a value. -/
def begin? (stack : List Frame) : Token → Option (List Frame × Await)
  | .scalar v => some (stack, .next v)
  | .beginArray => push? (.array []) .item stack
  | .beginObject => push? (.object [] []) .member stack
  | _ => none

/-- The effect of one token on the open containers and on what is awaited. -/
def step? : List Frame → Await → Token → Option (List Frame × Await)
  | stack, .value, token => begin? stack token
  | .array [] :: stack, .item, .endArray => some (stack, .next (.array []))
  | stack, .item, token => begin? stack token
  | .object [] _ :: stack, .member, .endObject => some (stack, .next (.object []))
  | stack, .member, .scalar (.string key) => some (stack, .colon key)
  | stack, .key, .scalar (.string key) => some (stack, .colon key)
  | .object members _ :: stack, .colon key, .colon => some (.object members key :: stack, .value)
  | .array items :: stack, .next v, .comma => some (.array (v :: items) :: stack, .value)
  | .array items :: stack, .next v, .endArray => some (stack, .next (.array (v :: items).reverse))
  | .object members key :: stack, .next v, .comma =>
    some (.object ((key, v) :: members) key :: stack, .key)
  | .object members key :: stack, .next v, .endObject =>
    some (stack, .next (.object ((key, v) :: members).reverse))
  | _, _, _ => none

/-- Reads on with the containers `stack` open. -/
def resume? (stack : List Frame) (await : Await) (s : Bytes) : Option (Json × Bytes) :=
  match stack, await with
  | [], .next v => some (v, s)
  | _, _ =>
    match _h : Token.next? s with
    | none => none
    | some (token, rest) =>
      match step? stack await token with
      | none => none
      | some (stack', await') => resume? stack' await' rest
termination_by s.length
decreasing_by exact Token.length_of_next? _h

/-- The first value of a text and what follows it; nothing if the text does not start with a
well-formed value. -/
def read? (s : Bytes) : Option (Json × Bytes) := resume? [] .value s

/-- The value of a text that holds one value and blanks. -/
def parse? (s : Bytes) : Option Json :=
  match read? s with
  | some (v, rest) => if rest.all isBlank then some v else none
  | none => none

/-! ## Members with their source text -/

/-- The members of an object whose opening brace, and perhaps some members, have been read: the
bodies of the keys and the source texts of the values. `acc` holds the members read so far, last
first. -/
def sourceMembersAux : (fuel : Nat) → (acc : List (Bytes × Bytes)) → Bytes → List (Bytes × Bytes)
  | 0, acc, _ => acc.reverse
  | fuel + 1, acc, s =>
    match Token.next? s with
    | some (.scalar (.string key), s) =>
      match Token.next? s with
      | some (.colon, s) =>
        let start := s.dropWhile isBlank
        match read? start with
        | some (_, rest) =>
          let acc := (key, start.take (start.length - rest.length)) :: acc
          match Token.next? rest with
          | some (.comma, s) => sourceMembersAux fuel acc s
          | _ => acc.reverse
        | none => acc.reverse
      | _ => acc.reverse
    | _ => acc.reverse

/-- The members of the object that a well-formed text starts with: the bodies of the keys and the
source texts of the values, blanks inside the values included. -/
def sourceMembers (s : Bytes) : List (Bytes × Bytes) :=
  match Token.next? s with
  | some (.beginObject, rest) => sourceMembersAux rest.length [] rest
  | _ => []

end LintPool.Json
