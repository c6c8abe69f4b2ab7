import LintPool.Yaml.Token

/-!
# YAML documents

The value of a document is a tree of scalars, sequences and mappings. Of a text with more than one
document only the first counts.

## Main definitions

* `LintPool.Yaml.Node` : a value.
* `LintPool.Yaml.Document` : what a text holds: nothing, a value or a fault.
* `LintPool.Yaml.read` : the first document of a text.
-/

namespace LintPool.Yaml

/-- A value. The members of a mapping keep their order. -/
inductive Node where
  /-- A scalar, plain or in quotes. -/
  | scalar (plain : Bool) (text : Bytes)
  | sequence (items : List Node)
  | mapping (members : List (Node × Node))

/-- The value that is left out. -/
def Node.missing : Node := .scalar true []

/-- The text of a scalar; collections have none. -/
def Node.text : Node → Bytes
  | .scalar _ text => text
  | _ => []

/-- What a text holds. -/
inductive Document where
  | missing
  | faulty
  | value (node : Node)

/-! ## Reading -/

/-- A part of a value, and the tokens behind it. -/
abbrev Parsed (α : Type) := Option (α × List Token)

/-- Whether the value of a block member is left out before a token. -/
def endsMember : Option Token → Bool
  | some .key => true
  | some .value => true
  | some .blockEnd => true
  | _ => false

mutual

/-- A value. In block context, collections may be told by indentation; as the value of a member, a
sequence need not be indented. -/
def node? : (fuel : Nat) → (block inMember : Bool) → List Token → Parsed Node
  | 0, _, _, _ => none
  | fuel + 1, block, inMember, ts =>
    match ts with
    | .scalar plain text :: ts => some (.scalar plain (Utf8.encodeAll text), ts)
    | .flowSequenceStart :: ts => flowItems? fuel true [] ts
    | .flowMappingStart :: ts => flowMembers? fuel true [] ts
    | .sequenceStart :: ts => if block then items? fuel [] ts else none
    | .mappingStart :: ts => if block then members? fuel [] ts else none
    | .entry :: _ => if inMember then looseItems? fuel [] ts else none
    | _ => none

/-- The items of a block sequence. -/
def items? : (fuel : Nat) → (acc : List Node) → List Token → Parsed Node
  | 0, _, _ => none
  | fuel + 1, acc, ts =>
    match ts with
    | .blockEnd :: ts => some (.sequence acc.reverse, ts)
    | .entry :: ts =>
      match ts.head? with
      | some .entry => items? fuel (.missing :: acc) ts
      | some .blockEnd => items? fuel (.missing :: acc) ts
      | _ =>
        match node? fuel true false ts with
        | some (item, ts) => items? fuel (item :: acc) ts
        | none => none
    | _ => none

/-- The items of a block sequence that is not indented. -/
def looseItems? : (fuel : Nat) → (acc : List Node) → List Token → Parsed Node
  | 0, _, _ => none
  | fuel + 1, acc, ts =>
    match ts with
    | .entry :: ts =>
      if ts.head? = some .entry || endsMember ts.head? then looseItems? fuel (.missing :: acc) ts
      else
        match node? fuel true false ts with
        | some (item, ts) => looseItems? fuel (item :: acc) ts
        | none => none
    | _ => some (.sequence acc.reverse, ts)

/-- A key or value of a block mapping. -/
def memberPart? : (fuel : Nat) → List Token → Parsed Node
  | 0, _ => none
  | fuel + 1, ts => if endsMember ts.head? then some (.missing, ts) else node? fuel true true ts

/-- The members of a block mapping. -/
def members? : (fuel : Nat) → (acc : List (Node × Node)) → List Token → Parsed Node
  | 0, _, _ => none
  | fuel + 1, acc, ts =>
    match ts with
    | .blockEnd :: ts => some (.mapping acc.reverse, ts)
    | .key :: ts =>
      match memberPart? fuel ts with
      | none => none
      | some (key, .value :: ts) =>
        match memberPart? fuel ts with
        | none => none
        | some (value, ts) => members? fuel ((key, value) :: acc) ts
      | some (key, ts) => members? fuel ((key, .missing) :: acc) ts
    | _ => none

/-- The value behind a key of a flow collection. -/
def flowValue? : (fuel : Nat) → List Token → Parsed Node
  | 0, _ => none
  | fuel + 1, ts =>
    match ts with
    | .value :: ts =>
      match ts.head? with
      | some .flowEntry => some (.missing, ts)
      | some .flowMappingEnd => some (.missing, ts)
      | some .flowSequenceEnd => some (.missing, ts)
      | _ => node? fuel false false ts
    | _ => some (.missing, ts)

/-- A key of a flow collection behind its mark. -/
def flowKey? : (fuel : Nat) → List Token → Parsed Node
  | 0, _ => none
  | fuel + 1, ts =>
    match ts.head? with
    | some .value => some (.missing, ts)
    | some .flowEntry => some (.missing, ts)
    | some .flowMappingEnd => some (.missing, ts)
    | some .flowSequenceEnd => some (.missing, ts)
    | _ => node? fuel false false ts

/-- The items of a flow sequence. A member by itself is a mapping of one member. -/
def flowItems? : (fuel : Nat) → (first : Bool) → (acc : List Node) → List Token → Parsed Node
  | 0, _, _, _ => none
  | fuel + 1, first, acc, ts =>
    match ts with
    | .flowSequenceEnd :: ts => some (.sequence acc.reverse, ts)
    | _ =>
      let behind : Option (List Token) :=
        if first then some ts
        else
          match ts with
          | .flowEntry :: ts => some ts
          | _ => none
      match behind with
      | none => none
      | some (.flowSequenceEnd :: ts) => some (.sequence acc.reverse, ts)
      | some (.key :: ts) =>
        match flowKey? fuel ts with
        | none => none
        | some (key, ts) =>
          match flowValue? fuel ts with
          | none => none
          | some (value, ts) => flowItems? fuel false (.mapping [(key, value)] :: acc) ts
      | some ts =>
        match node? fuel false false ts with
        | some (item, ts) => flowItems? fuel false (item :: acc) ts
        | none => none

/-- The members of a flow mapping. -/
def flowMembers? : (fuel : Nat) → (first : Bool) → (acc : List (Node × Node)) → List Token →
    Parsed Node
  | 0, _, _, _ => none
  | fuel + 1, first, acc, ts =>
    match ts with
    | .flowMappingEnd :: ts => some (.mapping acc.reverse, ts)
    | _ =>
      let behind : Option (List Token) :=
        if first then some ts
        else
          match ts with
          | .flowEntry :: ts => some ts
          | _ => none
      match behind with
      | none => none
      | some (.flowMappingEnd :: ts) => some (.mapping acc.reverse, ts)
      | some (.key :: ts) =>
        match flowKey? fuel ts with
        | none => none
        | some (key, ts) =>
          match flowValue? fuel ts with
          | none => none
          | some (value, ts) => flowMembers? fuel false ((key, value) :: acc) ts
      | some ts =>
        match node? fuel false false ts with
        | some (key, ts) => flowMembers? fuel false ((key, .missing) :: acc) ts
        | none => none

end

/-- Whether a document has no value before a token. -/
def endsDocument : Option Token → Bool
  | some .documentStart => true
  | some .documentEnd => true
  | some .streamEnd => true
  | _ => false

/-- A value that is followed by the tokens `rest`, two of which have to be readable behind the next.
-/
def Tokens.document (ts : Tokens) : Parsed Node → Document
  | none => .faulty
  | some (node, rest) => if ts.complete || 2 < rest.length then .value node else .faulty

/-- The value at the head of some tokens. -/
def nodeAt? (ts : List Token) : Parsed Node := node? (3 * ts.length + 3) true false ts

/-- The first document of a text. Only behind its mark may a document be empty. -/
def read (s : Bytes) : Document :=
  if Utf8.isValid s then
    let ts := tokens (Utf8.scalars s)
    match ts.list with
    | [] => .faulty
    | .streamEnd :: _ => .missing
    | .documentStart :: behind =>
      ts.document (if endsDocument behind.head? then some (.missing, behind) else nodeAt? behind)
    | behind => ts.document (nodeAt? behind)
  else .faulty

end LintPool.Yaml
