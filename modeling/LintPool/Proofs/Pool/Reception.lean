import LintPool.Proofs.Pool.Conservation

/-!
# What becomes of results

A result that comes in is merged as the answer to the batch in flight, or kept beside the batches,
or ignored, and nothing else merges or keeps a result. The report lists what the results that were
merged or kept say, and the batches that were given up.

## Main definitions

* `LintPool.Pool.Reception` : what becomes of a result.
* `LintPool.Pool.outcomesIn` : what the report says of each resolved batch.
* `LintPool.Pool.Turn.Reported` : the diagnostics of the report are those in the books.

## Main results

* `LintPool.Pool.Steps.unheard`, `LintPool.Pool.handle_result_cases` : only a result that comes in
  is merged or kept.
* `LintPool.Pool.Step.reported` : small steps report what they enter.
* `LintPool.Pool.Turn.Reported.perm` : the diagnostics, batch by batch.
-/

namespace LintPool.Pool

/-! ## Receptions -/

/-- What becomes of the result `r` of the worker `id`: which answers to batches are merged, and
which results are kept. -/
inductive Reception (s : State) (id : WorkerId) (r : Result) :
    List (WorkerId × Batch × Result) → List Result → Prop
  /-- It answers the batch in flight. -/
  | merged {w : Worker} {b : Batch} (hw : s.workers[id]? = some w) (hg : w.gone = false)
      (hb : w.batch = some b) (hr : r.files = Int64.ofNat b.files.length) :
    Reception s id r [(id, b, r)] []
  /-- It does not answer the batch in flight. -/
  | kept {w : Worker} (hw : s.workers[id]? = some w) (hg : w.gone = false)
      (hr : ∀ b, w.batch = some b → r.files ≠ Int64.ofNat b.files.length) : Reception s id r [] [r]
  /-- It comes from no worker that matters. -/
  | ignored (hg : ∀ w, s.workers[id]? = some w → w.gone = true) : Reception s id r [] []

/-- Whether a duty is to attend to a result. -/
def Duty.isHearing : Duty → Bool
  | .hearing _ _ => true
  | _ => false

/-- No result is merged or kept between two turns. -/
structure Unheard (t t' : Turn) : Prop where
  merged : mergedIn t'.effects = mergedIn t.effects
  kept : keptIn t'.effects = keptIn t.effects

section Steps

variable {o : Options} {t t' : Turn}

/-- Effects that neither merge nor keep a result. -/
lemma unheard_append {extra : List Effect} (hes : t'.effects = t.effects ++ extra)
    (hmerged : mergedIn extra = []) (hkept : keptIn extra = []) : Unheard t t' :=
  ⟨by simp [hes, hmerged], by simp [hes, hkept]⟩

/-- When a worker is lost, no result has to be attended to. -/
lemma isHearing_losing {d : Duty} {id : WorkerId} (hd : d = .free ∨ d = .losing id) :
    d.isHearing = false := by
  rcases hd with rfl | rfl
  · rfl
  · rfl

/-- After a loss no result has to be attended to. -/
lemma isHearing_afterLoss (w : Worker) : (Duty.afterLoss w).isHearing = false := by
  unfold Duty.afterLoss
  split <;> rfl

/-- **What a small step does with results.** Nothing, unless it attends to one; and a step that
leaves a result to be attended to leaves the state as it is. -/
theorem Step.result_cases {m m' : Moment} (h : Step o m m') :
    (m'.turn.state = m.turn.state ∧ m'.duty = m.duty ∧ Unheard m.turn m'.turn) ∨
    (m.duty.isHearing = false ∧ m'.duty.isHearing = false ∧ Unheard m.turn m'.turn) ∨
    ∃ id r merges keeps, m.duty = .hearing id r ∧ m'.duty.isHearing = false ∧
      Reception m.turn.state id r merges keeps ∧
      mergedIn m'.turn.effects = mergedIn m.turn.effects ++ merges ∧
      keptIn m'.turn.effects = keptIn m.turn.effects ++ keeps := by
  cases h with
  | aside he =>
    have hquiet := uneventful_aside he
    exact .inl ⟨rfl, rfl, unheard_append rfl hquiet.merged hquiet.kept⟩
  | timer x hw => exact .inr (.inl ⟨rfl, rfl, rfl, rfl⟩)
  | begin hs => exact .inr (.inl ⟨rfl, rfl, rfl, rfl⟩)
  | refill hs hlive => exact .inr (.inl ⟨rfl, rfl, rfl, rfl⟩)
  | rest hd =>
    refine .inr (.inl ⟨?_, rfl, rfl, rfl⟩)
    rcases hd with rfl | rfl
    · rfl
    · rfl
  | connect hw hc hg => exact .inr (.inl ⟨rfl, rfl, unheard_append rfl rfl rfl⟩)
  | dispatch hw hb => exact .inr (.inl ⟨rfl, rfl, unheard_append rfl rfl rfl⟩)
  | dismiss hw hr hp => exact .inr (.inl ⟨rfl, rfl, rfl, rfl⟩)
  | complete hw hg hb hr =>
    refine .inr (.inr ⟨_, _, _, _, rfl, rfl, .merged (hw ▸ getElem?_between) hg hb hr, ?_, ?_⟩)
    · exact mergedIn_append _ _
    · exact keptIn_append _ _
  | keep hw hg hr =>
    refine .inr (.inr ⟨_, _, _, _, rfl, rfl, .kept (hw ▸ getElem?_between) hg hr, ?_, ?_⟩)
    · exact mergedIn_append _ _
    · exact keptIn_append _ _
  | ignore hg =>
    refine .inr (.inr ⟨_, _, _, _, rfl, rfl, .ignored hg, ?_, ?_⟩)
    · exact (List.append_nil _).symm
    · exact (List.append_nil _).symm
  | exit hw =>
    refine .inr (.inl ⟨rfl, ?_, rfl, rfl⟩)
    dsimp only
    split <;> rfl
  | exitOther => exact .inr (.inl ⟨rfl, rfl, rfl, rfl⟩)
  | abandon cause hw hg hd hb =>
    exact .inr (.inl ⟨isHearing_losing hd, isHearing_afterLoss _, unheard_append rfl rfl rfl⟩)
  | retry cause hw hg hd hb ha hs =>
    exact .inr (.inl ⟨isHearing_losing hd, isHearing_afterLoss _, unheard_append rfl rfl rfl⟩)
  | escalate cause hw hg hd hb ha =>
    exact .inr (.inl ⟨isHearing_losing hd, isHearing_afterLoss _,
      unheard_append (List.append_assoc _ _ _) rfl rfl⟩)

/-- As long as there is no result to attend to, nothing is merged or kept. -/
lemma Steps.unheard {m m' : Moment} (h : Steps o m m') (hd : m.duty.isHearing = false) :
    Unheard m.turn m'.turn := by
  refine (Steps.keep (P := fun n => n.duty.isHearing = false ∧ Unheard m.turn n.turn) ?_ h
    ⟨hd, rfl, rfl⟩).2
  rintro n n' ⟨hn, hm⟩ hstep
  rcases hstep.result_cases with ⟨-, hsame, hu⟩ | ⟨-, hn', hu⟩ | ⟨id, r, _, _, hhear, -⟩
  · exact ⟨hsame ▸ hn, hu.merged.trans hm.merged, hu.kept.trans hm.kept⟩
  · exact ⟨hn', hu.merged.trans hm.merged, hu.kept.trans hm.kept⟩
  · rw [hhear] at hn
    cases hn

/-- **What becomes of a result that comes in.** It is received once, by the state that it meets. -/
theorem handle_result_cases (o : Options) (world : World) (t : Turn) (id : WorkerId) (r : Result) :
    ∃ merges keeps, Reception t.state id r merges keeps ∧
      mergedIn (t.followedBy (handle o world t.state (.result id r))).effects =
        mergedIn t.effects ++ merges ∧
      keptIn (t.followedBy (handle o world t.state (.result id r))).effects =
        keptIn t.effects ++ keeps := by
  -- the result is still to be attended to, or it has been received
  let P : Moment → Prop := fun m =>
    (m.duty = .hearing id r ∧ m.turn.state = t.state ∧ Unheard t m.turn) ∨
    (m.duty.isHearing = false ∧ ∃ merges keeps, Reception t.state id r merges keeps ∧
      mergedIn m.turn.effects = mergedIn t.effects ++ merges ∧
      keptIn m.turn.effects = keptIn t.effects ++ keeps)
  have hkeep : ∀ m m', P m → Step o m m' → P m' := by
    rintro m m' (⟨hd, hs, hm⟩ | ⟨hd, merges, keeps, hrec, hmerged, hkept⟩) hstep
    · rcases hstep.result_cases with ⟨hs', hd', hu⟩ | ⟨hd', -⟩ |
        ⟨id', r', _, _, hhear, hd', hrec, hm', hk'⟩
      · exact .inl ⟨hd'.trans hd, hs'.trans hs, hu.merged.trans hm.merged, hu.kept.trans hm.kept⟩
      · rw [hd] at hd'
        cases hd'
      · obtain ⟨rfl, rfl⟩ := Duty.hearing.inj (hd.symm.trans hhear)
        rw [hs] at hrec
        exact .inr ⟨hd', _, _, hrec, hm.merged ▸ hm', hm.kept ▸ hk'⟩
    · rcases hstep.result_cases with ⟨-, hd', hu⟩ | ⟨-, hd', hu⟩ | ⟨_, _, _, _, hhear, -⟩
      · exact .inr ⟨hd' ▸ hd, merges, keeps, hrec, hu.merged.trans hmerged, hu.kept.trans hkept⟩
      · exact .inr ⟨hd', merges, keeps, hrec, hu.merged.trans hmerged, hu.kept.trans hkept⟩
      · rw [hhear] at hd
        cases hd
  rcases Steps.keep hkeep (handle_steps o world t (.result id r)) (.inl ⟨rfl, rfl, rfl, rfl⟩) with
    ⟨hd, -⟩ | ⟨-, hreceived⟩
  · cases hd
  · exact hreceived

end Steps

/-! ## The report -/

/-- The diagnostics that an effect adds to the report. -/
def Effect.diagnostics : Effect → List Diagnostic
  | .merged _ _ r => r.errors
  | .kept _ r => r.errors
  | .escalated b cause => abandonment b.attempts cause b.files
  | _ => []

/-- What the report says of the batch resolved by an effect. -/
def Effect.outcome : Effect → List (Batch × List Diagnostic)
  | .merged _ b r => [(b, r.errors)]
  | .escalated b cause => [(b, abandonment b.attempts cause b.files)]
  | _ => []

/-- What the report says of each resolved batch. -/
def outcomesIn (effects : List Effect) : List (Batch × List Diagnostic) :=
  effects.flatMap Effect.outcome

/-- The diagnostics of the report are those in the books. -/
def Turn.Reported (t : Turn) : Prop := t.state.report.errors = t.effects.flatMap Effect.diagnostics

section Report

variable {t t' : Turn} {es : List Effect}

/-- A report stays right if it says no more and nothing is entered that it would have to say. -/
lemma Turn.Reported.add {extra : List Effect} {more : List Diagnostic} (h : t.Reported)
    (hreport : t'.state.report.errors = t.state.report.errors ++ more)
    (hes : t'.effects = t.effects ++ extra) (hmore : extra.flatMap Effect.diagnostics = more) :
    t'.Reported := by
  rw [Turn.Reported, hreport, hes, List.flatMap_append, hmore, h]

/-- Small steps report what they enter. -/
lemma Step.reported {o : Options} {m m' : Moment} (h : Step o m m') (hm : m.turn.Reported) :
    m'.turn.Reported := by
  have hsilent : ∀ {t' : Turn} {extra : List Effect}, t'.state.report = m.turn.state.report →
      t'.effects = m.turn.effects ++ extra → extra.flatMap Effect.diagnostics = [] → t'.Reported :=
    fun hreport hes hnone => hm.add (by rw [hreport, List.append_nil]) hes hnone
  cases h with
  | @aside t d e he =>
    refine hsilent rfl rfl ?_
    cases e with
    | log | sent | closed | rejected | killed => rfl
    | emit | dispatched | merged | kept | lost | escalated => cases he
  | timer x hw => exact hm
  | begin hs => exact hsilent hs.numbers.2.2 (List.append_nil _).symm rfl
  | refill hs hlive => exact hsilent hs.numbers.2.2 (List.append_nil _).symm rfl
  | rest hd => exact hm
  | connect hw hc hg => exact hsilent rfl rfl rfl
  | dispatch hw hb => exact hsilent rfl rfl rfl
  | dismiss hw hr hp => exact hm
  | complete hw hg hb hr => exact hm.add rfl rfl (List.append_nil _)
  | keep hw hg hr => exact hm.add rfl rfl (List.append_nil _)
  | ignore hg => exact hm
  | exit hw => exact hm
  | exitOther => exact hm
  | abandon cause hw hg hd hb => exact hsilent rfl rfl rfl
  | retry cause hw hg hd hb ha hs => exact hsilent hs.numbers.2.2 rfl rfl
  | escalate cause hw hg hd hb ha =>
    exact hm.add rfl (List.append_assoc _ _ _) (List.append_nil _)

/-- There is one outcome for each resolved batch. -/
lemma map_fst_outcomesIn : (outcomesIn es).map (·.1) = resolvedIn es := by
  rw [outcomesIn, resolvedIn, List.map_flatMap]
  congr 1
  funext e
  cases e <;> rfl

/-- A batch is reported as its result says, or as given up. -/
lemma mem_outcomesIn {b : Batch} {ds : List Diagnostic} (h : (b, ds) ∈ outcomesIn es) :
    (∃ id r, (id, b, r) ∈ mergedIn es ∧ ds = r.errors) ∨
      b ∈ escalatedIn es ∧ ∃ cause, ds = abandonment b.attempts cause b.files := by
  obtain ⟨e, he, hmem⟩ := List.mem_flatMap.mp h
  cases e with
  | merged id b' r =>
    obtain ⟨rfl, rfl⟩ := Prod.mk.inj (List.mem_singleton.mp hmem)
    exact .inl ⟨id, r, List.mem_flatMap.mpr ⟨_, he, List.mem_singleton.mpr rfl⟩, rfl⟩
  | escalated b' cause =>
    obtain ⟨rfl, rfl⟩ := Prod.mk.inj (List.mem_singleton.mp hmem)
    exact .inr ⟨List.mem_flatMap.mpr ⟨_, he, List.mem_singleton.mpr rfl⟩, cause, rfl⟩
  | _ => cases hmem

/-- **The report, batch by batch.** Its diagnostics are those of the resolved batches and those of
the results that were kept. -/
theorem Turn.Reported.perm (h : t.Reported) :
    t.state.report.errors.Perm
      ((outcomesIn t.effects).flatMap (·.2) ++ (keptIn t.effects).flatMap (·.errors)) := by
  have hsplit : Effect.diagnostics = fun e =>
      e.outcome.flatMap (·.2) ++ e.keep.flatMap (·.errors) := by
    funext e
    cases e <;> simp [Effect.diagnostics, Effect.outcome, Effect.keep]
  rw [h, hsplit, outcomesIn, keptIn, List.flatMap_assoc, List.flatMap_assoc]
  exact (List.flatMap_append_perm _ _ _).symm

end Report

end LintPool.Pool
