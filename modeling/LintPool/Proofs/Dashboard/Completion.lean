import LintPool.Proofs.Dashboard.Job

/-!
# Batches that are shown as done

A job on worker processes resolves a batch in two ways: it merges a result, or it gives the batch up
after too many attempts. Observers hear of the first but not of the second. So a job that succeeded
shows all its files as done, but of its batches only those that were not given up.

## Main results

* `LintPool.Pool.length_resolvedIn` : every resolved batch was merged or given up.
* `LintPool.Pool.following_finished_job` : what is shown at the end of a job that succeeded.
* `LintPool.Pool.batchesDone_eq_iff_escalatedIn_eq_nil` : all batches are shown as done if and only
  if none was given up.
* `LintPool.Pool.abandoned_batch_not_shown_done` : a job that succeeded and shows no batch as done.
-/

namespace LintPool.Pool

/-- Every batch that is resolved was merged or given up. -/
lemma length_resolvedIn (es : List Effect) :
    (resolvedIn es).length = (mergedIn es).length + (escalatedIn es).length := by
  induction es with
  | nil => rfl
  | cons e es ih =>
    rw [resolvedIn, mergedIn, escalatedIn, List.flatMap_cons, List.flatMap_cons, List.flatMap_cons,
      List.length_append, List.length_append, List.length_append]
    rw [resolvedIn, mergedIn, escalatedIn] at ih
    cases e <;> simp [Effect.resolution, Effect.merge, Effect.escalation, ih] <;> omega

/-- What the counters show at the end of a job that succeeded: that it is finished, all files, and
the batches that were told to be done. -/
lemma following_finished_job (p : Progress) (started e : Event) {along : List Event}
    (hstarted : started.kind = .jobStarted) (halong : ∀ e ∈ along, e.IsAlong)
    (he : e.kind = .jobFinished) (herror : e.error = []) (hfiles : e.files = started.files) :
    (p.following (started :: (along ++ [e]))).status = .finished ∧
      (p.following (started :: (along ++ [e]))).filesDone =
        (p.following (started :: (along ++ [e]))).files ∧
      (p.following (started :: (along ++ [e]))).batches = started.batches ∧
      (p.following (started :: (along ++ [e]))).batchesDone =
        Int64.ofInt (Event.tally .batches along) := by
  have hgoals := Event.goals_following halong (p.after started)
  have hstart : (p.after started).batches = started.batches ∧
      (p.after started).files = started.files := by
    simp [Progress.after, hstarted]
  have hcount : ((p.after started).following along).batchesDone =
      Int64.ofInt (Event.tally .batches along) := by
    have h := Event.count_following halong (p.after started) .batches
    rwa [Event.count_after_started hstarted, Int64.zero_add] at h
  have hlast : p.following (started :: (along ++ [e])) =
      ((p.after started).following along).after e := Progress.following_append ..
  rw [hlast]
  simp only [Progress.after, he]
  refine ⟨?_, ?_, hgoals.1.trans hstart.1, hcount⟩
  · rw [herror]
    rfl
  · rw [hfiles]
    exact (hgoals.2.trans hstart.2).symm

/-- The batches of a job that is done were merged or given up. -/
lemma merged_add_escalated {o : Options} {files : List Bytes} {t : Turn}
    (hconserved : Moment.Conserved (planFor o files) ⟨t, .free⟩) (hdone : t.state.status = .done) :
    (mergedIn t.effects).length + (escalatedIn t.effects).length =
      (planFor o files).jobs.length := by
  rw [← length_resolvedIn, ← hconserved.total_eq, ← resolved_of_done hdone]
  exact hconserved.tallied.resolved_eq.symm

section Successful

variable (o : Options) (world : World) (cancelOn : Option Event.Kind) (cancelled : Bool)
  (files : List Bytes) (occasions : List Occasion)

variable {o world cancelOn cancelled files occasions} in
/-- A job that has ended without an error is done, and told so at last. -/
lemma coordinate_of_ended (hfiles : files ≠ [])
    (hended : ∃ e ∈ (coordinate o world cancelOn cancelled files occasions).events,
      e.kind = .jobFinished)
    (herror : (coordinate o world cancelOn cancelled files occasions).error = none) :
    (lastTurn o world cancelOn cancelled files occasions).state.status = .done ∧
      (coordinate o world cancelOn cancelled files occasions).events = firstEvent o files ::
        (eventsOf (lastTurn o world cancelOn cancelled files occasions).effects ++
          [finishEvent (lastTurn o world cancelOn cancelled files occasions).state.report none])
    := by
  obtain ⟨finished, hreport, heq, hfinished, hdone⟩ :=
    coordinate_cases o world cancelOn cancelled occasions hfiles
  rw [herror, hreport] at hfinished
  cases finished with
  | some e =>
    refine ⟨hdone (Option.some_ne_none e) herror, ?_⟩
    rw [heq, hfinished e rfl]
    rfl
  | none =>
    obtain ⟨e, he, hkind⟩ := hended
    rw [heq, Option.toList_none, List.append_nil] at he
    rcases List.mem_cons.mp he with rfl | he
    · cases hkind
    · exact absurd hkind ((course_summed o world cancelOn _ files occasions).along e he).2

/-- **Batches that were given up are never shown as done.** A job on worker processes that has ended
without an error is shown to be finished with all files done. The batches that are shown as done,
however, lack those that were given up, so that these are all batches if and only if none was. -/
theorem batchesDone_eq_iff_escalatedIn_eq_nil (d : Dashboard) (hopen : d.hub.Open)
    (hfiles : files ≠ []) (hlength : files.length < 2 ^ 63)
    (hended : ∃ e ∈ (coordinate o world cancelOn cancelled files occasions).events,
      e.kind = .jobFinished)
    (herror : (coordinate o world cancelOn cancelled files occasions).error = none)
    (events : List Event)
    (hevents : events.map Event.plain =
      (coordinate o world cancelOn cancelled files occasions).events) :
    ∃ d', d.observeAll events = .ok d' ∧ d'.progress.status = .finished ∧
      d'.progress.filesDone = d'.progress.files ∧
      d'.progress.batches.toInt = d'.progress.batchesDone.toInt +
        (escalatedIn (lastTurn o world cancelOn cancelled files occasions).effects).length ∧
      (d'.progress.batchesDone = d'.progress.batches ↔
        escalatedIn (lastTurn o world cancelOn cancelled files occasions).effects = []) := by
  obtain ⟨hdone, heq⟩ := coordinate_of_ended hfiles hended herror
  rw [heq] at hevents
  generalize ht : lastTurn o world cancelOn cancelled files occasions = t at *
  have hconserved : Moment.Conserved (planFor o files) ⟨t, .free⟩ :=
    ht ▸ course_conserved o world cancelOn _ files occasions
  have hsummed : t.Summed := ht ▸ course_summed o world cancelOn _ files occasions
  have hreported : t.state.report.files = Int64.ofNat files.length := by
    have hall := hconserved.files_of_done hdone
    rwa [planFor, Schedule.flatten_jobs_plan] at hall
  have hmerged : Event.tally .batches (eventsOf t.effects) = (mergedIn t.effects).length := by
    rw [tally_batches hsummed.completed_anonymous, List.length_map]
  obtain ⟨hstatus, hfilesDone, hbatches, hbatchesDone⟩ := following_finished_job d.progress
    (firstEvent o files) (finishEvent t.state.report none) rfl hsummed.along rfl rfl hreported
  rw [hmerged, Int64.ofInt_eq_ofNat] at hbatchesDone
  obtain ⟨d', hobserve, hprogress⟩ := Dashboard.observeAll_eq hopen events
  have hview : ∀ {α : Type} (view : Progress → α), (∀ p, view p.plain = view p) →
      view d'.progress = view (d.progress.following (events.map Event.plain)) :=
    fun view h => hprogress ▸ Progress.view_following view h d.progress events
  rw [hevents] at hview
  have hplan := merged_add_escalated hconserved hdone
  have hjobs : (planFor o files).jobs.length < 2 ^ 63 :=
    (Schedule.length_jobs_le ..).trans_lt hlength
  have hall : d'.progress.batches.toInt = (planFor o files).jobs.length := by
    rw [hview Progress.batches (fun _ => rfl), hbatches]
    exact Int64.toInt_ofNat_of_lt hjobs
  have hshown : d'.progress.batchesDone.toInt = (mergedIn t.effects).length := by
    rw [hview Progress.batchesDone (fun _ => rfl), hbatchesDone]
    exact Int64.toInt_ofNat_of_lt (by omega)
  refine ⟨d', hobserve, (hview Progress.status fun _ => rfl).trans hstatus, ?_, by omega, ?_⟩
  · rw [hview Progress.filesDone fun _ => rfl, hview Progress.files fun _ => rfl]
    exact hfilesDone
  · rw [← Int64.toInt_inj, hall, hshown, ← List.length_eq_zero_iff]
    omega

end Successful

/-- A worker answers a batch, reports a failure and is lost with the next batch. -/
def troubled : List Occasion :=
  [{ happening := .hello (.worker 0) [] },
    { happening := .result 0 { files := 1, internal := 1 } },
    { happening := .result 0 (.ofFailure (utf8 "no")) },
    { happening := .lost 0 (utf8 "gone") }]

/-- What comes of a job with two batches that gets into trouble. -/
lemma coordinate_troubled :
    coordinate { jobSize := 1, retries := 0 } {} none false [utf8 "a", utf8 "b"] troubled =
      { report :=
          { errors :=
              [.failure (utf8 "no"),
                .internalError (utf8 "b") (utf8 "analysis abandoned after 1 attempts: gone")]
            files := 2
            internal := 3 }
        events :=
          [{ kind := .jobStarted, processes := 1, batches := 2, files := 2 },
            { kind := .workerConnected, worker := utf8 "w1" },
            { kind := .batchCompleted, worker := utf8 "w1", files := 1, internalErrors := 1 },
            { kind := .workerLost, worker := utf8 "w1", files := 1, error := utf8 "gone" },
            { kind := .jobFinished, files := 2, diagnostics := 2, internalErrors := 3 }] } := by
  cbv

/-- The second batch of the job that gets into trouble is given up. -/
lemma escalatedIn_troubled :
    escalatedIn (lastTurn { jobSize := 1, retries := 0 } {} none false [utf8 "a", utf8 "b"]
      troubled).effects = [{ index := 1, files := [utf8 "b"], attempts := 1 }] := by
  cbv

/-- A job in which the second of two batches is given up is shown to be finished, with all batches
done but one. -/
theorem batchesDone_of_troubled_job :
    (coordinate { jobSize := 1, retries := 0 } {} none false [utf8 "a", utf8 "b"]
        troubled).error = none ∧
      ∃ d', Dashboard.observeAll {} (coordinate { jobSize := 1, retries := 0 } {} none false
          [utf8 "a", utf8 "b"] troubled).events = .ok d' ∧
        d'.progress.status = .finished ∧ d'.progress.filesDone = d'.progress.files ∧
        d'.progress.batches.toInt = d'.progress.batchesDone.toInt + 1 := by
  have herror : (coordinate { jobSize := 1, retries := 0 } {} none false [utf8 "a", utf8 "b"]
      troubled).error = none := by rw [coordinate_troubled]
  obtain ⟨d', hobserve, hstatus, hfiles, hbatches, -⟩ := batchesDone_eq_iff_escalatedIn_eq_nil
    { jobSize := 1, retries := 0 } {} none false [utf8 "a", utf8 "b"] troubled {}
    (List.forall_mem_nil _) (by simp) (by simp) (by simp [coordinate_troubled]) herror
    (coordinate { jobSize := 1, retries := 0 } {} none false [utf8 "a", utf8 "b"] troubled).events
    (by rw [coordinate_troubled]; rfl)
  rw [escalatedIn_troubled] at hbatches
  exact ⟨herror, d', hobserve, hstatus, hfiles, hbatches⟩

/-- If the only worker of a job is lost with the only batch, and this is not handed out again, then
the job ends without an error, and it is shown to be finished with no batch done out of one. -/
theorem abandoned_batch_not_shown_done :
    (coordinate { retries := 0 } {} none false [utf8 "a"]
        [{ happening := .hello (.worker 0) [] }, { happening := .lost 0 [] }]).error = none ∧
      ∃ d', Dashboard.observeAll {} (coordinate { retries := 0 } {} none false [utf8 "a"]
          [{ happening := .hello (.worker 0) [] }, { happening := .lost 0 [] }]).events = .ok d' ∧
        d'.progress.status = .finished ∧ d'.progress.batches = 1 ∧ d'.progress.batchesDone = 0 := by
  have hjob : coordinate { retries := 0 } {} none false [utf8 "a"]
      [{ happening := .hello (.worker 0) [] }, { happening := .lost 0 [] }] =
      { report :=
          { errors := [.internalError (utf8 "a") (utf8 "analysis abandoned after 1 attempts: ")]
            files := 1
            internal := 1 }
        events :=
          [{ kind := .jobStarted, processes := 1, batches := 1, files := 1 },
            { kind := .workerConnected, worker := utf8 "w1" },
            { kind := .workerLost, worker := utf8 "w1", files := 1 },
            { kind := .jobFinished, files := 1, diagnostics := 1, internalErrors := 1 }] } := by cbv
  rw [hjob]
  exact ⟨rfl, _, rfl, rfl, rfl, rfl⟩

end LintPool.Pool
