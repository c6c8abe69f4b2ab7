import LintPool.Proofs.Pool.Journal
import LintPool.Proofs.Pool.Settled

/-!
# The accounts of the workers

Every worker has an account in the books of a job: the batches that it was handed, those that were
merged with its results, and the one that was lost with it. The account of a worker always balances,
in order. The batches that it was handed are those merged, then the one lost, then the one in
flight; and nothing is lost with a worker as long as it matters.

## Main definitions

* `LintPool.Pool.entriesOf` : the entries of one worker.
* `LintPool.Pool.Account` : the account of a worker balances.

## Main results

* `LintPool.Pool.Step.accounted` : small steps keep all accounts balanced.
-/

namespace LintPool.Pool

/-! ## The entries of one worker -/

section Entries

variable {α : Type} {id : WorkerId} {entries : List (WorkerId × α)}

/-- The entries of one worker among those of all. -/
def entriesOf (id : WorkerId) (entries : List (WorkerId × α)) : List α :=
  (entries.filter (·.1 == id)).map (·.2)

/-- In an empty book no worker has an entry. -/
@[simp] lemma entriesOf_nil : entriesOf id ([] : List (WorkerId × α)) = [] := rfl

/-- The entries of a worker in two books are those in the first and then those in the second. -/
@[simp] lemma entriesOf_append (entries' : List (WorkerId × α)) :
    entriesOf id (entries ++ entries') = entriesOf id entries ++ entriesOf id entries' := by
  simp [entriesOf]

/-- A worker's own entry is one of its entries. -/
@[simp] lemma entriesOf_self (a : α) : entriesOf id [(id, a)] = [a] := by simp [entriesOf]

/-- An entry of one worker is none of another. -/
lemma entriesOf_of_ne {id' : WorkerId} (h : id' ≠ id) (l : List α) :
    entriesOf id (l.map (id', ·)) = [] := by
  simp [entriesOf, h]

/-- The entries of a worker are those that bear its number. -/
lemma mem_entriesOf {a : α} : a ∈ entriesOf id entries ↔ (id, a) ∈ entries := by
  simp [entriesOf]

end Entries

/-- Effects by which nothing is entered in the account of a worker. -/
structure Effect.Foreign (id : WorkerId) (es : List Effect) : Prop where
  dispatched : entriesOf id (dispatchedIn es) = []
  merged : entriesOf id (mergedIn es) = []
  lost : entriesOf id (lostIn es) = []

/-- The account of a worker balances, and nothing was lost with it while it matters. -/
structure Account (es : List Effect) (id : WorkerId) (w : Worker) : Prop where
  balance : entriesOf id (dispatchedIn es) =
    (entriesOf id (mergedIn es)).map (·.1) ++ entriesOf id (lostIn es) ++ w.batch.toList
  unlost : w.gone = false → entriesOf id (lostIn es) = []

/-- The worker with a number; one that was never launched has no batch and has lost none. -/
def State.worker (s : State) (id : WorkerId) : Worker := s.workers[id]?.getD {}

/-- All accounts balance. -/
def Turn.Accounted (t : Turn) : Prop := ∀ id, Account t.effects id (t.state.worker id)

section Lemmas

variable {t t' : Turn} {before after : List Worker} {w w' : Worker} {es extra : List Effect}
  {id : WorkerId}

/-- An account stays balanced if nothing is entered, the batch in flight stays and no worker comes
back. -/
lemma Account.congr (h : Account es id w) (hextra : Effect.Foreign id extra)
    (hbatch : w'.batch = w.batch) (hgone : w'.gone = false → w.gone = false) :
    Account (es ++ extra) id w' where
  balance := by
    simp only [dispatchedIn_append, mergedIn_append, lostIn_append, entriesOf_append,
      hextra.dispatched, hextra.merged, hextra.lost, List.append_nil, hbatch]
    exact h.balance
  unlost hg := by
    rw [lostIn_append, entriesOf_append, hextra.lost, h.unlost (hgone hg), List.append_nil]

/-- Uneventful effects without a loss are foreign to every worker. -/
lemma Uneventful.foreign (h : Uneventful extra) (hlost : lostIn extra = []) (id : WorkerId) :
    Effect.Foreign id extra :=
  ⟨by rw [h.dispatched, entriesOf_nil], by rw [h.merged, entriesOf_nil],
    by rw [hlost, entriesOf_nil]⟩

/-- The loss of one worker is foreign to the others. -/
lemma foreign_loss {id' : WorkerId} (hne : id' ≠ id) (w : Worker) (cause : Bytes) :
    Effect.Foreign id (lossEntries id' w cause) where
  dispatched := by rw [(uneventful_loss id' w cause).dispatched, entriesOf_nil]
  merged := by rw [(uneventful_loss id' w cause).merged, entriesOf_nil]
  lost := by rw [lostIn_loss, entriesOf_of_ne hne]

/-- Effects that are foreign to a worker one after the other are so together. -/
lemma Effect.Foreign.append (h : Effect.Foreign id es) (h' : Effect.Foreign id extra) :
    Effect.Foreign id (es ++ extra) where
  dispatched := by simp [h.dispatched, h'.dispatched]
  merged := by simp [h.merged, h'.merged]
  lost := by simp [h.lost, h'.lost]

/-- The worker between two lists is found by its number. -/
lemma worker_between (hw : t.state.workers = before ++ w :: after) :
    t.state.worker before.length = w := by
  rw [State.worker, hw, getElem?_between, Option.getD_some]

/-- Changing one worker leaves the others as they are. -/
lemma worker_of_ne (hw : t.state.workers = before ++ w :: after)
    (hw' : t'.state.workers = before ++ w' :: after) (hne : id ≠ before.length) :
    t'.state.worker id = t.state.worker id := by
  have hset : t'.state.workers = t.state.workers.set before.length w' := by
    rw [hw, hw', List.set_append_right _ _ (Nat.le_refl _), Nat.sub_self, List.set_cons_zero]
  rw [State.worker, State.worker, hset, List.getElem?_set_ne hne.symm]

/-- Where only one worker changes, it is enough to look at this one and to see that nothing becomes
of the others. -/
lemma forall_worker_between {Q Q' : WorkerId → Worker → Prop}
    (hw : t.state.workers = before ++ w :: after) (hw' : t'.state.workers = before ++ w' :: after)
    (hother : ∀ id v, before.length ≠ id → Q id v → Q' id v)
    (hself : Q before.length w → Q' before.length w') (h : ∀ id, Q id (t.state.worker id)) :
    ∀ id, Q' id (t'.state.worker id) := by
  intro id
  have hid := h id
  by_cases heq : id = before.length
  · subst heq
    rw [worker_between hw] at hid
    rw [worker_between hw']
    exact hself hid
  · rw [worker_of_ne hw hw' heq]
    exact hother id _ (Ne.symm heq) hid

/-- A launch adds a worker that has not connected and has no batch in flight. -/
lemma Launched.forall_worker {reserved : Option Batch} {s s' : State} {Q : WorkerId → Worker → Prop}
    (h : Launched reserved s s')
    (hnew : ∀ id v, v.batch = none → v.connected = false → Q id {} → Q id v)
    (hs : ∀ id, Q id (s.worker id)) : ∀ id, Q id (s'.worker id) := by
  have hadd : ∀ v : Worker, v.batch = none → v.connected = false →
      ∀ id, Q id ((s.workers ++ [v])[id]?.getD {}) := by
    intro v hb hc id
    have hid : Q id (s.workers[id]?.getD {}) := hs id
    rcases Nat.lt_trichotomy id s.workers.length with hlt | rfl | hgt
    · rwa [List.getElem?_append_left hlt]
    · rw [List.getElem?_eq_none_iff.mpr (Nat.le_refl _)] at hid
      rw [getElem?_between]
      exact hnew _ v hb hc hid
    · have hlen : (s.workers ++ [v]).length ≤ id := by
        rw [List.length_append, List.length_singleton]
        exact hgt
      rw [List.getElem?_eq_none_iff.mpr (Nat.le_of_lt hgt)] at hid
      rwa [List.getElem?_eq_none_iff.mpr hlen]
  cases h with
  | up timer => exact hadd _ rfl rfl
  | down => exact hadd _ rfl rfl

/-- Where only one worker changes, and all entries are about it, it is enough to look at its
account. -/
lemma Turn.Accounted.between (h : t.Accounted) (hw : t.state.workers = before ++ w :: after)
    (hw' : t'.state.workers = before ++ w' :: after) (hes : t'.effects = t.effects ++ extra)
    (hforeign : ∀ id, before.length ≠ id → Effect.Foreign id extra)
    (hself : Account t.effects before.length w → Account t'.effects before.length w') :
    t'.Accounted := by
  refine forall_worker_between hw hw' (fun id v hne hv => ?_) hself h
  rw [hes]
  exact hv.congr (hforeign id hne) rfl fun hg => hg

/-- A launched worker has an empty account. -/
lemma Launched.accounted {reserved : Option Batch} {s s' : State} {effects : List Effect}
    (h : Launched reserved s s') (hs : Turn.Accounted ⟨s, effects⟩) :
    Turn.Accounted ⟨s', effects⟩ := by
  refine h.forall_worker (fun id v hb _ haccount => ?_) hs
  exact ⟨by simpa [hb] using haccount.balance, fun _ => haccount.unlost rfl⟩

/-- The account of a worker that is handed a batch. -/
lemma Account.hand {b : Batch} (h : Account es id w) (hg : w.gone = false) (hb : w.batch = none)
    (hb' : w'.batch = some b) : Account (es ++ [.dispatched id b]) id w' where
  balance := by
    have hbalance := h.balance
    rw [h.unlost hg, hb] at hbalance
    have hentry : entriesOf id (dispatchedIn [.dispatched id b]) = [b] := entriesOf_self b
    have hmerged : mergedIn [.dispatched id b] = [] := rfl
    have hlost : lostIn [.dispatched id b] = [] := rfl
    simp [hbalance, hentry, hmerged, hlost, hb', h.unlost hg]
  unlost _ := by
    rw [lostIn_append, entriesOf_append, h.unlost hg]
    rfl

/-- The account of a worker whose result is merged. -/
lemma Account.answer {b : Batch} {r : Result} {e : Event} (h : Account es id w)
    (hg : w.gone = false) (hb : w.batch = some b) (hb' : w'.batch = none) :
    Account (es ++ [.merged id b r, .emit e]) id w' where
  balance := by
    have hbalance := h.balance
    rw [h.unlost hg, hb] at hbalance
    have hentry : entriesOf id (mergedIn [.merged id b r, .emit e]) = [(b, r)] :=
      entriesOf_self (b, r)
    have hdispatched : dispatchedIn [.merged id b r, .emit e] = [] := rfl
    have hlost : lostIn [.merged id b r, .emit e] = [] := rfl
    simp [hbalance, hentry, hdispatched, hlost, hb', h.unlost hg]
  unlost _ := by
    rw [lostIn_append, entriesOf_append, h.unlost hg]
    rfl

/-- The account of a worker that is lost. -/
lemma Account.lose (h : Account es id w) (hg : w.gone = false) (hg' : w'.gone = true)
    (hb' : w'.batch = none) (cause : Bytes) :
    Account (es ++ lossEntries id w cause) id w' where
  balance := by
    have hloss := uneventful_loss id w cause
    have hself : entriesOf id (w.batch.toList.map (id, ·)) = w.batch.toList := by
      cases w.batch <;> simp
    simp [hloss.dispatched, hloss.merged, lostIn_loss, hself, hb', h.balance, h.unlost hg]
  unlost hg'' := by rw [hg'] at hg''; cases hg''

end Lemmas

/-- **Small steps keep all accounts balanced.**

**Proof sketch.** By the kind of step. Only three kinds make entries. A worker is handed a batch
when it has none in flight; a result is merged as the answer to the batch in flight; and the batch
in flight is lost with its worker, which is gone afterwards. -/
theorem Step.accounted {o : Options} {m m' : Moment} (h : Step o m m') (hset : m.Settled)
    (hm : m.turn.Accounted) : m'.turn.Accounted := by
  cases h with
  | aside he =>
    intro id
    exact (hm id).congr ((uneventful_aside he).foreign (lostIn_aside he) id) rfl fun hg => hg
  | timer x hw =>
    refine hm.between hw rfl (List.append_nil _).symm (fun id _ => ⟨rfl, rfl, rfl⟩) fun hself => ?_
    exact ⟨hself.balance, hself.unlost⟩
  | begin hs => exact hs.accounted hm
  | refill hs hlive => exact hs.accounted hm
  | rest hd => exact hm
  | connect hw hc hg =>
    refine hm.between hw rfl rfl (fun id _ => ⟨rfl, rfl, rfl⟩) fun hself => ?_
    exact hself.congr ⟨rfl, rfl, rfl⟩ rfl fun hg => hg
  | @dispatch t before after w b pending hw hb =>
    simp only [Moment.Settled, hw, settledBut_between] at hset
    obtain ⟨⟨hg, -, hnone⟩, -⟩ := hset
    refine hm.between hw rfl rfl (fun id hne => ⟨entriesOf_of_ne hne [_], rfl, rfl⟩) fun hself => ?_
    exact hself.hand hg hnone rfl
  | dismiss hw hr hp =>
    refine hm.between hw rfl (List.append_nil _).symm (fun id _ => ⟨rfl, rfl, rfl⟩) fun hself => ?_
    refine ⟨hself.balance, fun hg => ?_⟩
    cases hg
  | complete hw hg hb hr =>
    refine hm.between hw rfl rfl (fun id hne => ⟨rfl, entriesOf_of_ne hne [_], rfl⟩) fun hself => ?_
    exact hself.answer hg hb rfl
  | keep hw hg hr =>
    intro id
    exact (hm id).congr ⟨rfl, rfl, rfl⟩ rfl fun hg => hg
  | ignore hg => exact hm
  | exit hw =>
    refine hm.between hw rfl (List.append_nil _).symm (fun id _ => ⟨rfl, rfl, rfl⟩) fun hself => ?_
    exact ⟨hself.balance, hself.unlost⟩
  | exitOther => exact hm
  | abandon cause hw hg hd hb =>
    refine hm.between hw rfl rfl (fun id hne => foreign_loss hne _ cause) fun hself => ?_
    exact hself.lose hg rfl (by exact hb) cause
  | @retry t d before after w b s cause hw hg hd hb ha hs =>
    refine hs.accounted (hm.between hw rfl rfl (fun id hne => foreign_loss hne _ cause) ?_)
    exact fun hself => hself.lose hg rfl rfl cause
  | @escalate t d before after w b cause hw hg hd hb ha =>
    refine hm.between hw rfl (List.append_assoc _ _ _) (fun id hne => ?_) fun hself => ?_
    · exact (foreign_loss hne w cause).append ⟨rfl, rfl, rfl⟩
    · exact (hself.lose hg rfl rfl cause).congr ⟨rfl, rfl, rfl⟩ rfl fun hg => hg

end LintPool.Pool
