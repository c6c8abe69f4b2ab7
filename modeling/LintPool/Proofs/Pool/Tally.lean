import LintPool.Proofs.Pool.Chronicle
import LintPool.Proofs.Pool.Reception
import LintPool.Proofs.Report

/-!
# What a report adds up to

The report of a job is the total of what stands in its books: the results that were merged, the
diagnostics of those that were kept, and the files that were given up. Observers are told of the
merged ones only. All results come from what happens to the job.

## Main definitions

* `LintPool.Pool.Effect.addition`, `LintPool.Pool.additions` : what effects add to the report.
* `LintPool.Pool.completion` : the event of a merged result.
* `LintPool.Pool.Turn.Summed` : the report and the events agree with the books.
* `LintPool.Pool.Turn.Heard` : all results in the books are of some kind.

## Main results

* `LintPool.Pool.Step.summed`, `LintPool.Pool.course_summed` : report, events and books agree in the
  whole course of a job.
* `LintPool.Pool.course_heard` : the results in the books are those that happen to the job.
* `LintPool.Pool.Turn.Heard.addition` : what effects add is of the same kind as these results.
-/

namespace LintPool.Pool

/-! ## The books and the report -/

/-- What an effect adds to the report. -/
def Effect.addition : Effect → Result
  | .merged _ _ r => r
  | .kept _ r => { errors := r.errors, internal := r.internal }
  | .escalated b cause =>
    { errors := abandonment b.attempts cause b.files
      files := Int64.ofNat b.files.length
      internal := Int64.ofNat b.files.length }
  | _ => {}

/-- What some effects add to the report. -/
def additions (es : List Effect) : Result := .total (es.map Effect.addition)

/-- What effects add, they add in order. -/
lemma additions_append (es extra : List Effect) :
    additions (es ++ extra) = (additions es).merge (additions extra) := by
  rw [additions, List.map_append, Result.total_append]
  rfl

/-- A single effect. -/
lemma additions_singleton (e : Effect) : additions [e] = e.addition := Result.empty_merge _

/-- The event of a result that was merged. -/
def completion (entry : WorkerId × Batch × Result) : Event :=
  { batchEvent entry.2.2 with worker := WorkerId.name entry.1 }

/-- The events of finished batches. -/
def completed (events : List Event) : List Event := events.filter (·.kind == .batchCompleted)

/-- The report of a turn and its events agree with the books. -/
structure Turn.Summed (t : Turn) : Prop where
  report_eq : t.state.report = additions t.effects
  along : ∀ e ∈ eventsOf t.effects, e.kind ≠ .jobStarted ∧ e.kind ≠ .jobFinished
  completed_eq : completed (eventsOf t.effects) = (mergedIn t.effects).map completion
  files_eq : ∀ entry ∈ mergedIn t.effects, entry.2.2.files = Int64.ofNat entry.2.1.files.length

section Steps

variable {o : Options} {t t' : Turn} {extra : List Effect}

/-- Report and events still agree with the books if what is entered agrees with what is added. -/
lemma Turn.Summed.add (h : t.Summed) (hes : t'.effects = t.effects ++ extra)
    (hreport : t'.state.report = t.state.report.merge (additions extra))
    (halong : ∀ e ∈ eventsOf extra, e.kind ≠ .jobStarted ∧ e.kind ≠ .jobFinished)
    (hcompleted : completed (eventsOf extra) = (mergedIn extra).map completion)
    (hfiles : ∀ entry ∈ mergedIn extra, entry.2.2.files = Int64.ofNat entry.2.1.files.length) :
    t'.Summed where
  report_eq := by rw [hreport, hes, additions_append, h.report_eq]
  along := by
    rw [hes, eventsOf_append, List.forall_mem_append]
    exact ⟨h.along, halong⟩
  completed_eq := by
    rw [hes, eventsOf_append, mergedIn_append, List.map_append, ← h.completed_eq, ← hcompleted]
    exact List.filter_append ..
  files_eq := by
    rw [hes, mergedIn_append, List.forall_mem_append]
    exact ⟨h.files_eq, hfiles⟩

/-- Nothing is reported or told. -/
lemma Turn.Summed.congr (h : t.Summed) (hes : t'.effects = t.effects)
    (hreport : t'.state.report = t.state.report) : t'.Summed where
  report_eq := by rw [hreport, hes, h.report_eq]
  along := by
    rw [hes]
    exact h.along
  completed_eq := by rw [hes, h.completed_eq]
  files_eq := by
    rw [hes]
    exact h.files_eq

/-- Something is entered that is neither reported nor the end of a batch. -/
lemma Turn.Summed.silent (h : t.Summed) (hes : t'.effects = t.effects ++ extra)
    (hreport : t'.state.report = t.state.report) (hnone : additions extra = {})
    (halong : ∀ e ∈ eventsOf extra, e.kind ≠ .jobStarted ∧ e.kind ≠ .jobFinished)
    (hcompleted : completed (eventsOf extra) = []) (hmerged : mergedIn extra = []) :
    t'.Summed := by
  refine h.add hes ?_ halong ?_ ?_
  · rw [hreport, hnone, Result.merge_empty]
  · rw [hcompleted, hmerged, List.map_nil]
  · rw [hmerged]
    exact List.forall_mem_nil _

/-- The loss of a worker as such is not reported. -/
lemma Turn.Summed.lose (h : t.Summed) (id : WorkerId) (w : Worker) (cause : Bytes)
    (hes : t'.effects = t.effects ++ lossEntries id w cause)
    (hreport : t'.state.report = t.state.report) : t'.Summed :=
  h.silent hes hreport rfl (List.forall_mem_singleton.mpr ⟨by simp, by simp⟩) rfl rfl

/-- **Small steps report and tell what they enter.** A result is told of when it is merged, and the
files of a batch that is given up are reported without an event. -/
theorem Step.summed {m m' : Moment} (h : Step o m m') (hm : m.turn.Summed) : m'.turn.Summed := by
  cases h with
  | @aside t d e he =>
    have hnone : e.addition = {} := by
      cases e with
      | log | sent | closed | rejected | killed => rfl
      | emit | dispatched | merged | kept | lost | escalated => cases he
    refine hm.silent rfl rfl ?_ ?_ ?_ (uneventful_aside he).merged
    · rw [additions_singleton, hnone]
    · rw [eventsOf_aside he]
      exact List.forall_mem_nil _
    · rw [eventsOf_aside he]
      rfl
  | timer x hw => exact hm.congr rfl rfl
  | begin hs => exact hm.congr rfl hs.numbers.2.2
  | refill hs hlive => exact hm.congr rfl hs.numbers.2.2
  | rest hd => exact hm
  | connect hw hc hg =>
    exact hm.silent rfl rfl rfl (List.forall_mem_singleton.mpr ⟨by simp, by simp⟩) rfl rfl
  | dispatch hw hb => exact hm.silent rfl rfl rfl (List.forall_mem_nil _) rfl rfl
  | dismiss hw hr hp => exact hm.congr rfl rfl
  | @complete t before after w b r hw hg hb hr =>
    refine hm.add rfl ?_ (List.forall_mem_singleton.mpr ⟨by simp, by simp⟩) rfl
      (List.forall_mem_singleton.mpr hr)
    refine congrArg t.state.report.merge ?_
    simp [additions, Effect.addition]
  | @keep t before after w r hw hg hr =>
    refine hm.add rfl ?_ (List.forall_mem_nil _) rfl (List.forall_mem_nil _)
    rw [additions_singleton]
    simp [Result.merge, Effect.addition]
  | ignore hg => exact hm
  | exit hw => exact hm.congr rfl rfl
  | exitOther => exact hm.congr rfl rfl
  | abandon cause hw hg hd hb => exact hm.lose _ _ cause rfl rfl
  | retry cause hw hg hd hb ha hs => exact hm.lose _ _ cause rfl hs.numbers.2.2
  | @escalate t d before after w b cause hw hg hd hb ha =>
    have hlost : Turn.Summed
        { t with effects := t.effects ++ lossEntries before.length w cause } :=
      hm.lose _ _ cause rfl rfl
    refine hlost.add rfl ?_ (List.forall_mem_nil _) rfl (List.forall_mem_nil _)
    rw [additions_singleton]
    simp [Result.merge, Effect.addition, reportEscalated]

end Steps

/-- **Report, events and books agree** in the whole course of a job. -/
theorem course_summed (o : Options) (world : World) (cancelOn : Option Event.Kind)
    (cancelled : Bool) (files : List Bytes) (occasions : List Occasion) :
    (course o world cancelOn cancelled files occasions).Summed := by
  refine course_induction (P := fun m => m.turn.Summed) (fun _ _ _ h => h)
    (fun _ _ hm h => h.summed hm) world cancelOn cancelled files occasions ?_
  exact ⟨rfl, List.forall_mem_nil _, rfl, List.forall_mem_nil _⟩

/-! ## Where results come from -/

/-- All results that were merged or kept are of some kind. -/
structure Turn.Heard (P : Result → Prop) (t : Turn) : Prop where
  merged : ∀ entry ∈ mergedIn t.effects, P entry.2.2
  kept : ∀ r ∈ keptIn t.effects, P r

/-- All results that happen to a job are of some kind. -/
def Reports (P : Result → Prop) (occasions : List Occasion) : Prop :=
  ∀ occasion ∈ occasions, ∀ id r, occasion.happening = .result id r → P r

section Heard

variable {P : Result → Prop} {o : Options} {t t' : Turn}

/-- What effects add to the report is of the kind that the results are, if this holds of what is
written about batches that were given up. -/
lemma Turn.Heard.addition (h : t.Heard P) (hempty : P {})
    (hkept : ∀ r, P r → P { errors := r.errors, internal := r.internal })
    (hescalated : ∀ b cause, Effect.escalated b cause ∈ t.effects →
      P (Effect.escalated b cause).addition) {e : Effect} (he : e ∈ t.effects) : P e.addition := by
  cases e with
  | merged id b r =>
    exact h.merged (id, b, r) (List.mem_flatMap.mpr ⟨_, he, List.mem_singleton_self _⟩)
  | kept id r =>
    exact hkept r (h.kept r (List.mem_flatMap.mpr ⟨_, he, List.mem_singleton_self _⟩))
  | escalated b cause => exact hescalated b cause he
  | emit | log | sent | closed | rejected | killed | dispatched | lost => exact hempty

/-- If nothing is merged or kept, the results are those before. -/
lemma Turn.Heard.unheard (h : t.Heard P) (hu : Unheard t t') : t'.Heard P where
  merged := by
    rw [hu.merged]
    exact h.merged
  kept := by
    rw [hu.kept]
    exact h.kept

/-- The reaction to a happening enters no result but the one that comes in. -/
lemma Turn.Heard.handle (h : t.Heard P) (world : World) (happening : Happening)
    (hp : ∀ id r, happening = .result id r → P r) :
    (t.followedBy (handle o world t.state happening)).Heard P := by
  by_cases hhear : (Duty.upon happening).isHearing = false
  · exact h.unheard ((handle_steps o world t happening).unheard hhear)
  · cases happening with
    | result id r =>
      have hr := hp id r rfl
      obtain ⟨merges, keeps, hreception, hmerged, hkept⟩ := handle_result_cases o world t id r
      have hnew : (∀ entry ∈ merges, P entry.2.2) ∧ ∀ r ∈ keeps, P r := by
        cases hreception with
        | merged hw hg hb hfiles => exact ⟨List.forall_mem_singleton.mpr hr, List.forall_mem_nil _⟩
        | kept hw hg hfiles => exact ⟨List.forall_mem_nil _, List.forall_mem_singleton.mpr hr⟩
        | ignored hg => exact ⟨List.forall_mem_nil _, List.forall_mem_nil _⟩
      refine ⟨?_, ?_⟩
      · rw [hmerged, List.forall_mem_append]
        exact ⟨h.merged, hnew.1⟩
      · rw [hkept, List.forall_mem_append]
        exact ⟨h.kept, hnew.2⟩
    | _ => exact absurd rfl hhear

/-- A job that goes on enters no results but those that happen to it. -/
lemma Turn.Heard.follow (h : t.Heard P) (cancelOn : Option Event.Kind) (cancelled : Bool)
    {occasions : List Occasion} (hp : Reports P occasions) :
    (follow o cancelOn t cancelled occasions).1.Heard P := by
  induction occasions generalizing t cancelled with
  | nil => exact h
  | cons occasion rest ih =>
    obtain ⟨hfirst, hrest⟩ := List.forall_mem_cons.mp hp
    unfold Pool.follow
    split
    · exact ih (h.handle occasion.world occasion.happening hfirst) _ hrest
    · exact h

/-- **The results in the books are those that happen to the job.** -/
theorem course_heard (o : Options) (world : World) (cancelOn : Option Event.Kind)
    (cancelled : Bool) (files : List Bytes) {occasions : List Occasion}
    (hp : Reports P occasions) :
    (course o world cancelOn cancelled files occasions).Heard P := by
  have hstart : (start o world (planFor o files)).Heard P := by
    have hempty : Turn.Heard P { state := State.ofSchedule (planFor o files) } :=
      ⟨List.forall_mem_nil _, List.forall_mem_nil _⟩
    exact hempty.unheard ((start_steps o world _).unheard rfl)
  exact hstart.follow cancelOn cancelled hp

end Heard

end LintPool.Pool
