import LintPool.Proofs.Pool.Transition

/-!
# The books of a job

The effects of a job tell, among other things, which batches were handed out to whom, with whom they
were lost, and whether they were merged or given up. Each view here lists one kind of such entries,
in order.

## Main definitions

* `LintPool.Pool.dispatchedIn`, `LintPool.Pool.lostIn` : the batches handed out to workers, and
  those lost with workers.
* `LintPool.Pool.mergedIn`, `LintPool.Pool.escalatedIn`, `LintPool.Pool.resolvedIn` : the batches
  merged with their results, those given up, and both.
* `LintPool.Pool.keptIn` : the results that answered no batch.
* `LintPool.Pool.Uneventful` : effects by which nothing becomes of a batch.
-/

namespace LintPool.Pool

namespace Effect

/-- The batch handed out by an effect, with the worker. -/
def dispatch : Effect → List (WorkerId × Batch)
  | .dispatched id b => [(id, b)]
  | _ => []

/-- The batch lost by an effect, with the worker. -/
def loss : Effect → List (WorkerId × Batch)
  | .lost id (some b) => [(id, b)]
  | _ => []

/-- The batch merged by an effect, with the worker and its result. -/
def merge : Effect → List (WorkerId × Batch × Result)
  | .merged id b r => [(id, b, r)]
  | _ => []

/-- The batch given up by an effect. -/
def escalation : Effect → List Batch
  | .escalated b _ => [b]
  | _ => []

/-- The batch merged or given up by an effect. -/
def resolution : Effect → List Batch
  | .merged _ b _ => [b]
  | .escalated b _ => [b]
  | _ => []

/-- The result that answered no batch. -/
def keep : Effect → List Result
  | .kept _ r => [r]
  | _ => []

end Effect

section Views

variable (effects : List Effect)

/-- The batches handed out, each with its worker. -/
def dispatchedIn : List (WorkerId × Batch) := effects.flatMap Effect.dispatch

/-- The batches lost, each with its worker. -/
def lostIn : List (WorkerId × Batch) := effects.flatMap Effect.loss

/-- The batches merged, each with its worker and result. -/
def mergedIn : List (WorkerId × Batch × Result) := effects.flatMap Effect.merge

/-- The batches given up. -/
def escalatedIn : List Batch := effects.flatMap Effect.escalation

/-- The batches merged or given up. -/
def resolvedIn : List Batch := effects.flatMap Effect.resolution

/-- The results that answered no batch. -/
def keptIn : List Result := effects.flatMap Effect.keep

end Views

section Lemmas

variable (es es' : List Effect)

/-- Batches are handed out in the order of the effects. -/
@[simp] lemma dispatchedIn_append :
    dispatchedIn (es ++ es') = dispatchedIn es ++ dispatchedIn es' := List.flatMap_append

/-- Batches are lost in the order of the effects. -/
@[simp] lemma lostIn_append : lostIn (es ++ es') = lostIn es ++ lostIn es' := List.flatMap_append

/-- Batches are merged in the order of the effects. -/
@[simp] lemma mergedIn_append : mergedIn (es ++ es') = mergedIn es ++ mergedIn es' :=
  List.flatMap_append

/-- Batches are given up in the order of the effects. -/
@[simp] lemma escalatedIn_append : escalatedIn (es ++ es') = escalatedIn es ++ escalatedIn es' :=
  List.flatMap_append

/-- Batches are resolved in the order of the effects. -/
@[simp] lemma resolvedIn_append : resolvedIn (es ++ es') = resolvedIn es ++ resolvedIn es' :=
  List.flatMap_append

/-- Results are kept in the order of the effects. -/
@[simp] lemma keptIn_append : keptIn (es ++ es') = keptIn es ++ keptIn es' := List.flatMap_append

/-- Batches given up are resolved. -/
lemma escalatedIn_sublist : (escalatedIn es).Sublist (resolvedIn es) := by
  induction es with
  | nil => exact .slnil
  | cons e es ih =>
    refine List.Sublist.append (?_ : (Effect.escalation e).Sublist (Effect.resolution e)) ih
    cases e <;> simp [Effect.escalation, Effect.resolution]

end Lemmas

/-- No batch is handed out or resolved by some effects, and no result is kept. -/
structure Uneventful (es : List Effect) : Prop where
  dispatched : dispatchedIn es = []
  merged : mergedIn es = []
  escalated : escalatedIn es = []
  resolved : resolvedIn es = []
  kept : keptIn es = []

/-- An aside is uneventful. -/
lemma uneventful_aside {e : Effect} (he : e.isAside) : Uneventful [e] := by
  cases e with
  | log | sent | closed | rejected | killed => exact ⟨rfl, rfl, rfl, rfl, rfl⟩
  | emit | dispatched | merged | kept | lost | escalated => cases he

/-- The loss of a worker as such is uneventful. -/
lemma uneventful_loss (id : WorkerId) (w : Worker) (cause : Bytes) :
    Uneventful (lossEntries id w cause) := ⟨rfl, rfl, rfl, rfl, rfl⟩

/-- With an aside no batch is lost. -/
lemma lostIn_aside {e : Effect} (he : e.isAside) : lostIn [e] = [] := by
  cases e with
  | lost => cases he
  | _ => rfl

/-- With a worker the batch in flight is lost. -/
lemma lostIn_loss (id : WorkerId) (w : Worker) (cause : Bytes) :
    lostIn (lossEntries id w cause) = w.batch.toList.map (id, ·) := by
  unfold lossEntries
  cases w.batch <;> rfl

end LintPool.Pool
