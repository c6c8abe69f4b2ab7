import LintPool.Proofs.Analysis
import LintPool.Proofs.Pool.Reception
import LintPool.Proofs.Pool.Retries
import LintPool.Proofs.Stream.Carriage

/-!
# Honest workers are merged exactly once

A worker is honest if it answers the batches that it was handed, one after another, each with the
analysis of exactly its files. Besides it may report at any time that its connection failed, whether
or not it stops then; and of one that has died nothing more is heard. Nothing on the wire tells
which batch an answer belongs to. An answer is taken for the batch that is in flight when it comes
in, and it may come in late: when the worker was given up, and its batch is on another one or has
been given up too.

An exchange is a job with honest workers. Batches go to them and their answers come back in frames,
which are read in pieces of any lengths. What they say is heard in the order of each connection, but
otherwise at any time; all else may happen to the pool at any time as well.

On the way damaged bytes are mended. If a path of the job is not valid text, the worker so looks at
another path, and the report says what was found there.

## Main definitions

* `LintPool.Pool.Deed` : the next thing that an honest worker says, or anything else that happens.
* `LintPool.Pool.Exchange`, `LintPool.Pool.Exchange.run` : an exchange and its course.
* `LintPool.Pool.Verdict`, `LintPool.Pool.HeardVerdict` : what a report may say of a batch, and of
  one whose paths or findings are damaged.
* `LintPool.Pool.Exchange.Faithful` : what the books say agrees with what the workers have said.

## Main results

* `LintPool.Pool.Exchange.Faithful.next` : every deed keeps an exchange faithful.
* `LintPool.Pool.exchange_merges_exactly_once` : the report of a job that is done has one outcome
  for each batch.
* `LintPool.Pool.exchange_with_damaged_path` : not so if a path is damaged.
-/

namespace LintPool.Pool

/-! ## Exchanges -/

/-- Whether a happening is the report of a result. -/
def Happening.isResult : Happening → Bool
  | .result _ _ => true
  | _ => false

/-- The next thing in an exchange. Frames are read in pieces of the given lengths, and a last one.
-/
inductive Deed where
  /-- Something happens to the pool that is not the report of a result. -/
  | befalls (h : Happening) (hh : h.isResult = false)
  /-- A worker answers the first batch that it has not answered yet. Its analyzer may take the job
  for cancelled. -/
  | answers (id : WorkerId) (cancelled : Bool) (there back : List Nat)
  /-- A worker reports that its connection failed. -/
  | fails (id : WorkerId) (cause : Bytes) (back : List Nat)

/-- A job, and what its honest workers have said so far. -/
structure Exchange where
  turn : Turn
  cancelled : Bool := false
  /-- How many batches each worker has answered. -/
  answered : WorkerId → Nat := fun _ => 0
  /-- The failures that were heard of workers that were not gone. -/
  accepted : List Result := []

namespace Exchange

/-- The files that a worker has to answer for next, among those that it was handed. -/
def due? (e : Exchange) (id : WorkerId) : Option (List Bytes) :=
  (entriesOf id (dispatchedIn e.turn.effects))[e.answered id]?.map (·.files)

/-- What happens to the pool by a deed. A worker analyses the files that arrive, and what arrives of
its result is what the pool hears. A worker with nothing to answer for says nothing; neither does
one whose batch or whose answer does not arrive. -/
def happening? (analyzer : Analyzer) (e : Exchange) : Deed → Option Happening
  | .befalls h _ => some h
  | .answers id cancelled there back => do
    let files ← e.due? id
    let arrived ← Stream.carryFiles? files there
    let heard ← Stream.carryResult? (analyseBatch analyzer cancelled arrived).result back
    return .result id heard
  | .fails id cause back => (Stream.carryResult? (.ofFailure cause) back).map (.result id)

/-- Notes what a worker has said, given what happens by it. -/
def note (e : Exchange) (happening : Happening) : Deed → Exchange
  | .befalls _ _ => e
  | .answers id _ _ _ => { e with answered := Function.update e.answered id (e.answered id + 1) }
  | .fails _ _ _ =>
    match happening with
    | .result id heard =>
      if e.turn.state.workers[id]?.any (!·.gone) then
        { e with accepted := e.accepted ++ [heard] }
      else e
    | _ => e

/-- The exchange after something has happened by a deed. Once the job has ended nothing is heard any
more. -/
def hear (o : Options) (cancelOn : Option Event.Kind) (e : Exchange) (world : World) (deed : Deed)
    (happening : Happening) : Exchange :=
  if standing e.cancelled e.turn.state = .waiting then
    let (turn, cancelled) := follow o cancelOn e.turn e.cancelled [{ world, happening }]
    { e.note happening deed with turn, cancelled }
  else e

/-- The exchange after one more deed. -/
def next (o : Options) (analyzer : Analyzer) (cancelOn : Option Event.Kind) (e : Exchange)
    (world : World) (deed : Deed) : Exchange :=
  match e.happening? analyzer deed with
  | none => e
  | some happening => e.hear o cancelOn world deed happening

/-- The exchange of a job after some deeds, each in a world of its own. -/
def run (o : Options) (world : World) (analyzer : Analyzer) (cancelOn : Option Event.Kind)
    (cancelled : Bool) (files : List Bytes) (deeds : List (World × Deed)) : Exchange :=
  deeds.foldl (fun e (world, deed) => e.next o analyzer cancelOn world deed)
    { turn := start o world (planFor o files), cancelled }

end Exchange

/-- What a report may say of a batch: what the analysis of its files found, or that it was given up
after all attempts, once for each file. -/
def Verdict (o : Options) (analyzer : Analyzer) (job : List Bytes) (outcome : List Diagnostic) :
    Prop :=
  (∃ cancelled, outcome = (analyseBatch analyzer cancelled job).result.errors) ∨
    ∃ cause, outcome = abandonment (o.retries.toNatClampNeg + 1) cause job

/-- What is heard of the analysis of some files: paths are mended on the way to the worker, and
diagnostics on the way back. -/
def heardOf (analyzer : Analyzer) (cancelled : Bool) (files : List Bytes) : Result :=
  (analyseBatch analyzer cancelled (files.map Utf8.mend)).result.mended

/-- What a report may say of a batch whose paths, or the texts reported on them, may be damaged:
what was heard of the analysis of its files, or that it was given up. -/
def HeardVerdict (o : Options) (analyzer : Analyzer) (job : List Bytes)
    (outcome : List Diagnostic) : Prop :=
  (∃ cancelled, outcome = (heardOf analyzer cancelled job).errors) ∨
    ∃ cause, outcome = abandonment (o.retries.toNatClampNeg + 1) cause job

/-- Whether an analyzer reports nothing but valid text on some files. -/
def ReportsText (analyzer : Analyzer) (files : List Bytes) : Prop :=
  ∀ cancelled, ∀ file ∈ files,
    ∀ d ∈ ((analyzer cancelled file).outcome.result file).errors, d.IsText

section Verdicts

variable {o : Options} {analyzer : Analyzer} {job : List Bytes} {outcome : List Diagnostic}

/-- The result of a batch holds valid text if nothing else is reported on its files. -/
lemma ReportsText.analyseBatch (h : ReportsText analyzer job) (cancelled : Bool) :
    ∀ d ∈ (analyseBatch analyzer cancelled job).result.errors, d.IsText := by
  have hfold : ∀ p : Progressed, (∀ d ∈ p.result.errors, d.IsText) →
      ∀ d ∈ (job.foldl (Progressed.visit analyzer) p).result.errors, d.IsText := by
    induction job with
    | nil => exact fun _ hp => hp
    | cons file job ih =>
      intro p hp
      refine ih (fun c f hf => h c f (List.mem_cons_of_mem file hf)) _ ?_
      exact List.forall_mem_append.mpr ⟨hp, h p.cancelled file List.mem_cons_self⟩
  rw [analyseBatch_eq_foldl]
  exact hfold _ (List.forall_mem_nil _)

/-- What is heard of a batch with valid paths and texts is what was found. -/
lemma HeardVerdict.verdict (h : HeardVerdict o analyzer job outcome)
    (hpaths : ∀ file ∈ job, Utf8.isValid file = true) (htexts : ReportsText analyzer job) :
    Verdict o analyzer job outcome := by
  have hjob : job.map Utf8.mend = job :=
    (List.map_congr_left fun file hfile => Utf8.mend_of_isValid (hpaths file hfile)).trans
      (List.map_id job)
  refine h.imp_left ?_
  rintro ⟨cancelled, rfl⟩
  refine ⟨cancelled, ?_⟩
  rw [heardOf, hjob, Result.mended, Diagnostic.map_mended (htexts.analyseBatch cancelled)]

end Verdicts

/-! ## Faithful exchanges -/

/-- What the books say agrees with what the workers have said: with a worker that was not lost, all
answers were merged; every result merged is what was heard of the analysis of its batch; and the
results kept are the failures that were heard. -/
structure Exchange.Faithful (o : Options) (analyzer : Analyzer) (files : List Bytes)
    (e : Exchange) : Prop where
  moderate : Moment.Moderate o (planFor o files) ⟨e.turn, .free⟩
  reported : e.turn.Reported
  answered_eq : ∀ id, entriesOf id (lostIn e.turn.effects) = [] →
    e.answered id = (entriesOf id (mergedIn e.turn.effects)).length
  merged : ∀ x ∈ mergedIn e.turn.effects,
    ∃ cancelled, x.2.2 = heardOf analyzer cancelled x.2.1.files
  accepted_eq : e.accepted = keptIn e.turn.effects

/-- The analysis of a batch counts its files. -/
lemma files_analyseBatch (analyzer : Analyzer) (cancelled : Bool) (files : List Bytes) :
    (analyseBatch analyzer cancelled files).result.files = Int64.ofNat files.length := by
  have hfold : ∀ p : Progressed, (files.foldl (Progressed.visit analyzer) p).result.files =
      p.result.files + Int64.ofNat files.length := by
    induction files with
    | nil => intro p; simp
    | cons file files ih =>
      intro p
      have hone : ∀ outcome : Outcome, (outcome.result file).files = 1 := by
        intro outcome
        cases outcome <;> rfl
      rw [List.foldl_cons, ih, List.length_cons, Nat.add_comm, Int64.ofNat_add, ← Int64.add_assoc]
      simp only [Progressed.visit, Result.merge, hone]
      rfl
  rw [analyseBatch_eq_foldl, hfold]
  simp

/-- What is heard of the analysis of a batch counts its files. -/
lemma files_heardOf (analyzer : Analyzer) (cancelled : Bool) (files : List Bytes) :
    (heardOf analyzer cancelled files).files = Int64.ofNat files.length := by
  rw [heardOf, Result.mended, files_analyseBatch, List.length_map]

namespace Exchange.Faithful

variable {o : Options} {analyzer : Analyzer} {files : List Bytes} {e e' : Exchange} {id : WorkerId}
  {merges : List (WorkerId × Batch × Result)} {keeps : List Result}

/-- The next batch of a worker that was not lost is the one in flight. -/
lemma due_eq_batch (he : e.Faithful o analyzer files)
    (hlost : entriesOf id (lostIn e.turn.effects) = []) :
    (entriesOf id (dispatchedIn e.turn.effects))[e.answered id]? =
      (e.turn.state.worker id).batch := by
  have hbalance := (he.moderate.accounted id).balance
  rw [hlost, List.append_nil] at hbalance
  rw [he.answered_eq id hlost, hbalance,
    List.getElem?_append_right (Nat.le_of_eq (List.length_map ..)), List.length_map, Nat.sub_self]
  cases (e.turn.state.worker id).batch <;> rfl

/-- A worker that still matters was not lost. -/
lemma unlost (he : e.Faithful o analyzer files) {w : Worker}
    (hw : e.turn.state.workers[id]? = some w) (hg : w.gone = false) :
    entriesOf id (lostIn e.turn.effects) = [] := by
  refine (he.moderate.accounted id).unlost ?_
  rw [State.worker, hw]
  exact hg

/-- **Honest answers are merged or come too late.** The answer of a worker that was lost is ignored,
and that of another is merged as the answer to the batch in flight. -/
lemma reception_answer (he : e.Faithful o analyzer files) {b : Batch} {r : Result}
    (hdue : (entriesOf id (dispatchedIn e.turn.effects))[e.answered id]? = some b)
    (hr : ∃ c, r = heardOf analyzer c b.files)
    (hrec : Reception e.turn.state id r merges keeps) :
    keeps = [] ∧
      (entriesOf id (lostIn e.turn.effects) ≠ [] ∧ merges = [] ∨ merges = [(id, b, r)]) := by
  -- as long as the worker was not lost, the batch that it answers is in flight
  have hflight : ∀ {w}, e.turn.state.workers[id]? = some w →
      entriesOf id (lostIn e.turn.effects) = [] → w.batch = some b := by
    intro w hw hlost
    rw [← hdue, he.due_eq_batch hlost, State.worker, hw, Option.getD_some]
  cases hrec with
  | merged hw hg hb _ =>
    obtain rfl := Option.some.inj (hb.symm.trans (hflight hw (he.unlost hw hg)))
    exact ⟨rfl, .inr rfl⟩
  | kept hw hg hne =>
    obtain ⟨c, rfl⟩ := hr
    exact absurd (files_heardOf analyzer c b.files) (hne b (hflight hw (he.unlost hw hg)))
  | ignored hg =>
    refine ⟨rfl, .inl ⟨fun hlost => ?_, rfl⟩⟩
    have hbatch := hdue.symm.trans (he.due_eq_batch hlost)
    cases hw : e.turn.state.workers[id]? with
    | none =>
      rw [State.worker, hw] at hbatch
      cases hbatch
    | some w =>
      have hnone := (he.moderate.conserved.gone_holds_none (List.mem_of_getElem? hw) (hg w hw)).2
      rw [hflight hw hlost] at hnone
      cases hnone

/-- A failure is kept if its worker still matters, and ignored otherwise. -/
lemma reception_failure (he : e.Faithful o analyzer files) {r : Result} (hfiles : r.files = 0)
    (hrec : Reception e.turn.state id r merges keeps) :
    merges = [] ∧ keeps = if e.turn.state.workers[id]?.any (!·.gone) then [r] else [] := by
  cases hrec with
  | merged hw hg hb hr =>
    have hne := he.moderate.conserved.size_ne_zero (List.mem_of_getElem? hw) hb
    exact absurd (hr.symm.trans hfiles) hne
  | kept hw hg hr =>
    refine ⟨rfl, ?_⟩
    rw [hw, if_pos (by simp [hg])]
  | ignored hg =>
    refine ⟨rfl, ?_⟩
    rw [if_neg]
    cases hw : e.turn.state.workers[id]? with
    | none => simp
    | some w => simp [hg w hw]

/-- An exchange stays faithful if what is noted agrees with what is merged and kept. -/
lemma of_handle (he : e.Faithful o analyzer files) (world : World) (h : Happening)
    (hturn : e'.turn = e.turn.followedBy (handle o world e.turn.state h))
    (hmerges : mergedIn e'.turn.effects = mergedIn e.turn.effects ++ merges)
    (hkeeps : keptIn e'.turn.effects = keptIn e.turn.effects ++ keeps)
    (hanswered : ∀ i, entriesOf i (lostIn e.turn.effects) = [] →
      e'.answered i = e.answered i + (entriesOf i merges).length)
    (hmerged : ∀ x ∈ merges, ∃ c, x.2.2 = heardOf analyzer c x.2.1.files)
    (haccepted : e'.accepted = e.accepted ++ keeps) : e'.Faithful o analyzer files where
  moderate := by
    rw [hturn]
    exact handle_induction Moment.Moderate.hear (fun _ _ hm hstep => hstep.moderate hm) world _ h
      he.moderate
  reported := by
    have hreported := handle_induction (o := o) (P := fun m => m.turn.Reported) (fun _ _ _ hm => hm)
      (fun _ _ hm hstep => hstep.reported hm) world e.turn h he.reported
    rw [hturn]
    exact hreported
  answered_eq i hlost := by
    have hbefore : entriesOf i (lostIn e.turn.effects) = [] := by
      rw [hturn, Turn.followedBy, lostIn_append, entriesOf_append] at hlost
      exact (List.append_eq_nil_iff.mp hlost).1
    rw [hanswered i hbefore, he.answered_eq i hbefore, hmerges, entriesOf_append,
      List.length_append]
  merged x hx := by
    rw [hmerges] at hx
    rcases List.mem_append.mp hx with hx | hx
    · exact he.merged x hx
    · exact hmerged x hx
  accepted_eq := by rw [haccepted, hkeeps, he.accepted_eq]

section Deeds

variable (world : World) (cancelled : Bool)

/-- What is not a result is not noted, and nothing is merged or kept. -/
lemma befall (he : e.Faithful o analyzer files) {h : Happening} (hh : h.isResult = false) :
    Faithful o analyzer files
      { e with turn := e.turn.followedBy (handle o world e.turn.state h), cancelled } := by
  have hunheard := (handle_steps o world e.turn h).unheard (by cases h <;> trivial)
  exact he.of_handle world h rfl (hunheard.merged.trans (List.append_nil _).symm)
    (hunheard.kept.trans (List.append_nil _).symm) (fun _ _ => rfl) nofun (List.append_nil _).symm

/-- An answer is merged, unless its worker was lost. -/
lemma answer (he : e.Faithful o analyzer files) {b : Batch} {r : Result}
    (hdue : (entriesOf id (dispatchedIn e.turn.effects))[e.answered id]? = some b)
    (hr : ∃ c, r = heardOf analyzer c b.files) :
    Faithful o analyzer files
      { e with
        turn := e.turn.followedBy (handle o world e.turn.state (.result id r)), cancelled
        answered := Function.update e.answered id (e.answered id + 1) } := by
  obtain ⟨merges, keeps, hrec, hmerges, hkeeps⟩ := handle_result_cases o world e.turn id r
  obtain ⟨rfl, hcases⟩ := he.reception_answer hdue hr hrec
  refine he.of_handle world _ rfl hmerges hkeeps (fun i hlost => ?_) ?_ (List.append_nil _).symm
  · rcases hcases with ⟨hlate, rfl⟩ | rfl
    · have hne : i ≠ id := fun heq => hlate (heq ▸ hlost)
      exact Function.update_of_ne hne _ _
    · by_cases heq : i = id
      · subst heq
        rw [entriesOf_self]
        exact Function.update_self ..
      · have hnone : entriesOf i [(id, b, r)] = [] := entriesOf_of_ne (Ne.symm heq) [(b, r)]
        rw [hnone]
        exact Function.update_of_ne heq _ _
  · rcases hcases with ⟨-, rfl⟩ | rfl
    · nofun
    · intro x hx
      rw [List.mem_singleton.mp hx]
      exact hr

/-- A failure is kept, unless its worker is gone. -/
lemma fail (he : e.Faithful o analyzer files) (cause : Bytes) (back : List Nat) {r : Result}
    (hfiles : r.files = 0) :
    Faithful o analyzer files
      { e.note (.result id r) (.fails id cause back) with
        turn := e.turn.followedBy (handle o world e.turn.state (.result id r))
        cancelled } := by
  obtain ⟨merges, keeps, hrec, hmerges, hkeeps⟩ := handle_result_cases o world e.turn id r
  obtain ⟨rfl, rfl⟩ := he.reception_failure hfiles hrec
  refine he.of_handle world _ rfl hmerges hkeeps (fun i _ => ?_) nofun ?_
  · unfold Exchange.note
    dsimp only
    split <;> rfl
  · unfold Exchange.note
    dsimp only
    split
    · rfl
    · exact (List.append_nil _).symm

end Deeds

/-- **Every deed keeps an exchange faithful.** -/
theorem next (he : e.Faithful o analyzer files) (cancelOn : Option Event.Kind) (world : World)
    (deed : Deed) : (e.next o analyzer cancelOn world deed).Faithful o analyzer files := by
  unfold Exchange.next
  split
  · exact he
  · rename_i h hh
    unfold Exchange.hear
    split
    · rename_i hwaiting
      -- the job goes on, so that the next turn is the reaction to the happening
      simp only [follow, hwaiting, ↓reduceIte]
      cases deed with
      | befalls h' hresult =>
        obtain rfl := Option.some.inj hh
        exact he.befall world _ hresult
      | answers id cancelled there back =>
        obtain ⟨due, hdue, hh⟩ := Option.bind_eq_some_iff.mp hh
        obtain ⟨arrived, harrived, hh⟩ := Option.bind_eq_some_iff.mp hh
        obtain ⟨heard, hheard, hh⟩ := Option.bind_eq_some_iff.mp hh
        obtain rfl := Option.some.inj hh
        obtain ⟨b, hb, rfl⟩ := Option.map_eq_some_iff.mp hdue
        obtain rfl := Stream.of_carryFiles? harrived
        exact he.answer world _ hb ⟨cancelled, Stream.of_carryResult? hheard⟩
      | fails id cause back =>
        obtain ⟨heard, hheard, rfl⟩ := Option.map_eq_some_iff.mp hh
        obtain rfl := Stream.of_carryResult? hheard
        exact he.fail world _ cause back rfl
    · exact he

/-- What the report says of a batch is what was heard of its files, or that it was given up. -/
lemma heardVerdict (he : e.Faithful o analyzer files) {x : Batch × List Diagnostic}
    (hx : x ∈ outcomesIn e.turn.effects) : HeardVerdict o analyzer x.1.files x.2 := by
  rcases mem_outcomesIn hx with ⟨id, r, hmerged, hds⟩ | ⟨hescalated, cause, hds⟩
  · obtain ⟨c, hr⟩ := he.merged _ hmerged
    exact .inl ⟨c, hds.trans (congrArg Result.errors hr)⟩
  · rw [he.moderate.booked.escalated, List.mem_filter, beq_iff_eq] at hescalated
    exact .inr ⟨cause, by rw [hds, hescalated.2, Options.limit]⟩

end Exchange.Faithful

section Course

variable (o : Options) (world : World) (analyzer : Analyzer) (cancelOn : Option Event.Kind)
  (cancelled : Bool) (files : List Bytes) (deeds : List (World × Deed))

/-- An exchange is faithful at its start. -/
lemma faithful_start :
    Exchange.Faithful o analyzer files
      { turn := start o world (planFor o files), cancelled } := by
  have hunheard := (start_steps o world (planFor o files)).unheard rfl
  refine ⟨course_moderate o world none cancelled files [], ?_, fun id _ => ?_, ?_, ?_⟩
  · exact Steps.keep (P := fun m => m.turn.Reported) (fun _ _ hm hstep => hstep.reported hm)
      (start_steps o world (planFor o files)) rfl
  · rw [hunheard.merged]
    rfl
  · rw [hunheard.merged]
    nofun
  · rw [hunheard.kept]
    rfl

/-- An exchange is faithful in its whole course. -/
theorem faithful_run :
    (Exchange.run o world analyzer cancelOn cancelled files deeds).Faithful o analyzer files := by
  unfold Exchange.run
  have hstart := faithful_start o world analyzer cancelled files
  generalize ({ turn := start o world (planFor o files), cancelled } : Exchange) = e at hstart ⊢
  induction deeds generalizing e with
  | nil => exact hstart
  | cons deed deeds ih => exact ih _ (hstart.next cancelOn deed.1 deed.2)

/-- **Honest workers are merged exactly once.** Whatever happens to the pool and in whatever order
its honest workers are heard, if the job is done then the report has exactly one outcome for each
batch of the schedule: what was heard of the analysis of its files, or a diagnostic for each of its
files that the analysis was given up after all attempts. Besides these there are the failures that
were heard of workers not gone yet, and nothing else. If the paths of the job are valid and only
valid text is reported on them, what was heard of the analysis of a batch are its diagnostics.

**Proof sketch.** Each batch is resolved once (`Moment.Conserved.perm_of_done`), the report is made
of what was resolved and what was kept (`Turn.Reported.perm`), and in a faithful exchange what was
merged was heard of the analysis of the batch and what was kept are the failures. -/
theorem exchange_merges_exactly_once
    (hdone : (Exchange.run o world analyzer cancelOn cancelled files deeds).turn.state.status =
      .done) :
    ∃ outcomes : List (List Diagnostic),
      List.Forall₂ (HeardVerdict o analyzer) (planFor o files).jobs outcomes ∧
      ((∀ file ∈ files, Utf8.isValid file = true) → ReportsText analyzer files →
        List.Forall₂ (Verdict o analyzer) (planFor o files).jobs outcomes) ∧
      (Exchange.run o world analyzer cancelOn cancelled files deeds).turn.state.report.errors.Perm
        (outcomes.flatten ++
          (Exchange.run o world analyzer cancelOn cancelled files deeds).accepted.flatMap
            (·.errors)) := by
  set e := Exchange.run o world analyzer cancelOn cancelled files deeds
  have he : e.Faithful o analyzer files :=
    faithful_run o world analyzer cancelOn cancelled files deeds
  -- the batches of the outcomes in the books are those of the schedule, in another order
  have hbatches : (State.ofSchedule (planFor o files)).pending.Perm
      ((outcomesIn e.turn.effects).map (·.1.origin)) := by
    have hresolved := he.moderate.conserved.perm_of_done hdone
    rw [← map_fst_outcomesIn, List.map_map] at hresolved
    exact hresolved.symm
  have hverdicts : List.Forall₂
      (fun (b : Batch) outcome => HeardVerdict o analyzer b.files outcome)
      ((outcomesIn e.turn.effects).map (·.1.origin)) ((outcomesIn e.turn.effects).map (·.2)) := by
    rw [List.forall₂_map_left_iff, List.forall₂_map_right_iff, List.forall₂_same]
    exact fun x hx => he.heardVerdict hx
  obtain ⟨outcomes, hjobs, houtcomes⟩ := List.perm_comp_forall₂ hbatches hverdicts
  have hheard : List.Forall₂ (HeardVerdict o analyzer) (planFor o files).jobs outcomes := by
    rw [← map_files_ofSchedule, List.forall₂_map_left_iff]
    exact hjobs
  refine ⟨outcomes, hheard, fun hpaths htexts => ?_, ?_⟩
  · refine List.forall₂_iff_zip.mpr ⟨hheard.length_eq, fun {job outcome} hmem => ?_⟩
    have hsub : ∀ file ∈ job, file ∈ files := by
      intro file hfile
      rw [← Schedule.flatten_jobs_plan files _ o.jobSize _]
      exact List.mem_flatten_of_mem (List.of_mem_zip hmem).1 hfile
    exact ((List.forall₂_iff_zip.mp hheard).2 hmem).verdict
      (fun file hfile => hpaths file (hsub file hfile))
      (fun c file hfile => htexts c file (hsub file hfile))
  · refine he.reported.perm.trans ?_
    rw [he.accepted_eq, List.flatMap_def]
    exact houtcomes.symm.flatten.append_right _

end Course

/-! ## Exchanges that happen -/

namespace Exchange

variable {o : Options} {analyzer : Analyzer} {cancelOn : Option Event.Kind} {e : Exchange}

/-- Whether the deeds of an exchange have the given happenings. -/
def Tells (o : Options) (analyzer : Analyzer) (cancelOn : Option Event.Kind) :
    Exchange → List (World × Deed × Happening) → Prop
  | _, [] => True
  | e, (world, deed, h) :: rest =>
    e.happening? analyzer deed = some h ∧
      Tells o analyzer cancelOn (e.hear o cancelOn world deed h) rest

/-- What happens by the deeds of an exchange is heard. -/
lemma Tells.foldl_eq {l : List (World × Deed × Happening)} (h : e.Tells o analyzer cancelOn l) :
    l.foldl (fun e x => e.next o analyzer cancelOn x.1 x.2.1) e =
      l.foldl (fun e x => e.hear o cancelOn x.1 x.2.1 x.2.2) e := by
  induction l generalizing e with
  | nil => rfl
  | cons x l ih =>
    obtain ⟨hh, hrest⟩ := h
    rw [List.foldl_cons, List.foldl_cons, next, hh]
    exact ih hrest

/-- The answer to a batch is heard if the frames of both are sent. -/
lemma happening?_answers {id : WorkerId} {cancelled : Bool} {files : List Bytes} {r : Result}
    (hdue : e.due? id = some files) (hne : ∀ file ∈ files, file ≠ [])
    (hsent : (Stream.encode (.analyse files)).toOption.isSome = true)
    (hr : (analyseBatch analyzer cancelled (files.map Utf8.mend)).result = r)
    (hcounts : 0 ≤ r.files ∧ 0 ≤ r.internal)
    (hanswered : (Stream.encode (.result r)).toOption.isSome = true) (there back : List Nat) :
    e.happening? analyzer (.answers id cancelled there back) = some (.result id r.mended) := by
  rw [happening?, hdue, Option.bind_eq_bind, Option.bind_some, Stream.carryFiles?_eq hne hsent,
    Option.bind_eq_bind, Option.bind_some, hr, Stream.carryResult?_eq hcounts hanswered]
  rfl

end Exchange

/-- The exchange of a job with deeds that have the given happenings. -/
lemma run_eq_of_tells {o : Options} {analyzer : Analyzer} {cancelOn : Option Event.Kind}
    {files : List Bytes} {l : List (World × Deed × Happening)}
    (h : Exchange.Tells o analyzer cancelOn { turn := start o {} (planFor o files) } l) :
    Exchange.run o {} analyzer cancelOn false files (l.map fun x => (x.1, x.2.1)) =
      l.foldl (fun e x => e.hear o cancelOn x.1 x.2.1 x.2.2)
        { turn := start o {} (planFor o files) } := by
  rw [Exchange.run, List.foldl_map]
  exact h.foldl_eq

/-- An analyzer that finds something in the first line of every file. -/
def findsAll : Analyzer := fun _ file => { outcome := .done [.finding file 1 (utf8 "no")] false }

/-- What it says of a file with a valid path is valid text. -/
lemma isText_findsAll {file : Bytes} (hfile : Utf8.isValid file = true) :
    (Diagnostic.finding file 1 (utf8 "no")).IsText := ⟨by cbv, hfile⟩

/-- The result of a batch with the file `a`. -/
def foundInA : Result := { errors := [.finding (utf8 "a") 1 (utf8 "no")], files := 1 }

/-- The deeds of an exchange in which the first worker is lost and answers too late, with what
happens by each. The second worker reports a failure, answers for the first batch and is lost with
the second batch, which is then lost for good with the third worker. -/
def lateAnswer : List (World × Deed × Happening) :=
  [({}, .befalls (.hello (.worker 0) []) rfl, .hello (.worker 0) []),
    ({}, .befalls (.lost 0 (utf8 "timeout")) rfl, .lost 0 (utf8 "timeout")),
    ({}, .answers 0 false [7] [3, 20], .result 0 foundInA),
    ({}, .befalls (.hello (.worker 1) []) rfl, .hello (.worker 1) []),
    ({}, .fails 1 (utf8 "broken pipe") [9], .result 1 (.ofFailure (utf8 "broken pipe"))),
    ({}, .answers 1 false [] [], .result 1 foundInA),
    ({}, .befalls (.lost 1 (utf8 "closed")) rfl, .lost 1 (utf8 "closed")),
    ({}, .befalls (.hello (.worker 2) []) rfl, .hello (.worker 2) []),
    ({}, .befalls (.lost 2 (utf8 "closed")) rfl, .lost 2 (utf8 "closed"))]

/-- A job of two files in batches of one, with one worker and these deeds. -/
def lateRun : Exchange :=
  Exchange.run { jobSize := 1 } {} findsAll none false [utf8 "a", utf8 "b"]
    (lateAnswer.map fun x => (x.1, x.2.1))

set_option maxRecDepth 4000 in
/-- Frames of this exchange are sent. -/
lemma encode_foundInA :
    (Stream.encode (.analyse [utf8 "a"])).toOption.isSome = true ∧
      (Stream.encode (.result foundInA)).toOption.isSome = true := by cbv

set_option maxRecDepth 4000 in
/-- The report of a failure is sent. -/
lemma encode_brokenPipe :
    (Stream.encode (.result (.ofFailure (utf8 "broken pipe")))).toOption.isSome = true := by cbv

/-- Nothing that is sent in this exchange is damaged. -/
lemma mended_foundInA : [utf8 "a"].map Utf8.mend = [utf8 "a"] ∧ foundInA.mended = foundInA ∧
    Result.mended (.ofFailure (utf8 "broken pipe")) = .ofFailure (utf8 "broken pipe") := by
  cbv

/-- The answer of a worker that has to answer for the first batch. -/
lemma happening?_foundInA {e : Exchange} {id : WorkerId} (hdue : e.due? id = some [utf8 "a"])
    (there back : List Nat) :
    e.happening? findsAll (.answers id false there back) = some (.result id foundInA) := by
  have hr : (analyseBatch findsAll false ([utf8 "a"].map Utf8.mend)).result = foundInA := by
    rw [mended_foundInA.1]
    rfl
  rw [Exchange.happening?_answers hdue (by decide) encode_foundInA.1 hr (by decide)
    encode_foundInA.2 there back, mended_foundInA.2.1]

/-- The deeds have the given happenings. -/
lemma tells_lateAnswer :
    Exchange.Tells { jobSize := 1 } findsAll none
      { turn := start { jobSize := 1 } {} (planFor { jobSize := 1 } [utf8 "a", utf8 "b"]) }
      lateAnswer := by
  refine ⟨rfl, rfl, happening?_foundInA (by cbv) _ _, rfl, ?_, happening?_foundInA (by cbv) _ _,
    rfl, rfl, rfl, trivial⟩
  rw [Exchange.happening?, Stream.carryResult?_eq (by decide) encode_brokenPipe,
    mended_foundInA.2.2]
  rfl

/-- The paths of the job are valid. -/
lemma isValid_lateFiles : [utf8 "a", utf8 "b"].all Utf8.isValid = true := by cbv

/-- A job of two batches is done by the deeds of `lateAnswer`. -/
theorem exchange_with_late_answer :
    lateRun.turn.state.status = .done ∧
      (∀ file ∈ [utf8 "a", utf8 "b"], Utf8.isValid file = true) ∧
      ReportsText findsAll [utf8 "a", utf8 "b"] ∧
      ∃ outcomes : List (List Diagnostic),
        List.Forall₂ (Verdict { jobSize := 1 } findsAll)
          (planFor { jobSize := 1 } [utf8 "a", utf8 "b"]).jobs outcomes ∧
        lateRun.turn.state.report.errors.Perm
          (outcomes.flatten ++ lateRun.accepted.flatMap (·.errors)) := by
  have hdone : lateRun.turn.state.status = .done := by
    rw [lateRun, run_eq_of_tells tells_lateAnswer]
    cbv
  have hpaths : ∀ file ∈ [utf8 "a", utf8 "b"], Utf8.isValid file = true :=
    List.all_eq_true.mp isValid_lateFiles
  have htexts : ReportsText findsAll [utf8 "a", utf8 "b"] := by
    intro cancelled file hfile d hd
    obtain rfl := List.mem_singleton.mp hd
    exact isText_findsAll (hpaths file hfile)
  obtain ⟨outcomes, -, hverdicts, hperm⟩ := exchange_merges_exactly_once { jobSize := 1 } {}
    findsAll none false [utf8 "a", utf8 "b"] _ hdone
  exact ⟨hdone, hpaths, htexts, outcomes, hverdicts hpaths htexts, hperm⟩

/-! ## A damaged path -/

/-- What is heard of a batch with the damaged path: a finding in another file. -/
def foundElsewhere : Result :=
  { errors := [.finding (Utf8.mend damagedPath) 1 (utf8 "no")], files := 1 }

/-- The deeds of a worker that answers for the only batch. -/
def promptAnswer : List (World × Deed × Happening) :=
  [({}, .befalls (.hello (.worker 0) []) rfl, .hello (.worker 0) []),
    ({}, .answers 0 false [] [], .result 0 foundElsewhere)]

/-- A job with the damaged path and these deeds. -/
def damagedRun : Exchange :=
  Exchange.run {} {} findsAll none false [damagedPath] (promptAnswer.map fun x => (x.1, x.2.1))

set_option maxRecDepth 4000 in
/-- Frames of this exchange are sent. -/
lemma encode_foundElsewhere :
    (Stream.encode (.analyse [damagedPath])).toOption.isSome = true ∧
      (Stream.encode (.result foundElsewhere)).toOption.isSome = true := by cbv

/-- The deeds have the given happenings. -/
lemma tells_promptAnswer :
    Exchange.Tells {} findsAll none { turn := start {} {} (planFor {} [damagedPath]) }
      promptAnswer := by
  have hmended : foundElsewhere.mended = foundElsewhere := by
    rw [Result.mended, Diagnostic.map_mended]
    exact List.forall_mem_singleton.mpr (isText_findsAll (Utf8.isValid_mend damagedPath))
  have hr : (analyseBatch findsAll false ([damagedPath].map Utf8.mend)).result =
      foundElsewhere := rfl
  refine ⟨rfl, ?_, trivial⟩
  rw [Exchange.happening?_answers (by cbv) (by decide) encode_foundElsewhere.1 hr (by decide)
    encode_foundElsewhere.2 [] [], hmended]

/-- **A damaged path is not reported on.** A worker answers for the only file of a job, whose path
is not valid text. The job is done, but its report says neither what the analysis of this file found
nor that it was given up. -/
theorem exchange_with_damaged_path :
    damagedRun.turn.state.status = .done ∧
      ¬ ∃ outcomes : List (List Diagnostic),
        List.Forall₂ (Verdict {} findsAll) (planFor {} [damagedPath]).jobs outcomes ∧
        damagedRun.turn.state.report.errors.Perm
          (outcomes.flatten ++ damagedRun.accepted.flatMap (·.errors)) := by
  have hrun := run_eq_of_tells tells_promptAnswer
  have hreport : damagedRun.turn.state.status = .done ∧
      damagedRun.turn.state.report.errors = foundElsewhere.errors ∧ damagedRun.accepted = [] := by
    rw [damagedRun, hrun]
    cbv
  obtain ⟨hdone, herrors, haccepted⟩ := hreport
  have hjobs : (planFor {} [damagedPath]).jobs = [[damagedPath]] := by cbv
  refine ⟨hdone, ?_⟩
  rintro ⟨outcomes, hverdicts, hperm⟩
  -- every diagnostic on the only file has its path
  have hfile : ∀ d ∈ outcomes.flatten, d.file = damagedPath := by
    rw [hjobs] at hverdicts
    obtain ⟨outcome, rest, hverdict, hrest, rfl⟩ := List.forall₂_cons_left_iff.mp hverdicts
    obtain rfl := List.forall₂_nil_left_iff.mp hrest
    rw [List.flatten_singleton]
    rcases hverdict with ⟨cancelled, rfl⟩ | ⟨cause, rfl⟩
    · exact List.forall_mem_singleton.mpr rfl
    · exact List.forall_mem_singleton.mpr rfl
  rw [herrors, haccepted, List.flatMap_nil, List.append_nil] at hperm
  have hmended := hfile _ (hperm.subset (List.mem_singleton_self _))
  have hvalid := Utf8.isValid_mend damagedPath
  rw [show Utf8.mend damagedPath = damagedPath from hmended, isValid_damagedPath] at hvalid
  cases hvalid

end LintPool.Pool
