import LintPool.Proofs.Dashboard.Coverage
import LintPool.Proofs.Pool.Exchange
import LintPool.Proofs.Pool.InProcess

/-!
# A job on the dashboard

The report of a job covers the results that its events tell of: it counts what they count, and
besides what was kept or given up. So a dashboard that follows the events of a job stays in bounds,
and nothing that it shows ever decreases.

## Main definitions

* `LintPool.Pool.failuresIn` : how many failures stand in the books.
* `LintPool.Pool.lastTurn` : the turn in which a job on worker processes ends.

## Main results

* `LintPool.Pool.coordinate_cases` : what a job on worker processes leaves behind.
* `LintPool.Pool.covers_merged`, `LintPool.Pool.covers_results` : reports cover the results.
* `LintPool.Pool.trail_coordinate`, `LintPool.Pool.trail_examineHere` : the events of both kinds of
  jobs.
* `LintPool.Pool.job_shown_steadily` : what the dashboard shows of a job.
-/

namespace LintPool.Pool

/-! ## On worker processes -/

/-- How many failures stand in the books, in exact arithmetic. -/
def failuresIn (es : List Effect) : Int := (es.map fun e => e.addition.internal.toInt).sum

section Books

variable {o : Options} {files : List Bytes} {t : Turn} {es : List Effect} {b : Batch}

/-- The events of finished batches tell of the merged results. -/
lemma Turn.Summed.completed_anonymous (h : t.Summed) :
    (completed (eventsOf t.effects)).map Event.anonymous =
      ((mergedIn t.effects).map (·.2.2)).map batchEvent := by
  rw [h.completed_eq, List.map_map, List.map_map]
  rfl

/-- Merged batches are resolved. -/
lemma map_mergedIn_sublist (es : List Effect) :
    ((mergedIn es).map (·.2.1)).Sublist (resolvedIn es) := by
  induction es with
  | nil => exact .slnil
  | cons e es ih =>
    rw [mergedIn, List.flatMap_cons, List.map_append, resolvedIn, List.flatMap_cons]
    refine List.Sublist.append ?_ ih
    cases e <;> simp [Effect.merge, Effect.resolution]

/-- What the merged results count is no more than what all effects add to the report. -/
lemma sum_merged_le (count : Result → Int) (hes : ∀ e ∈ es, 0 ≤ count e.addition) :
    ((mergedIn es).map fun entry => count entry.2.2).sum ≤
      (es.map fun e => count e.addition).sum := by
  induction es with
  | nil => exact Int.le_refl 0
  | cons e es ih =>
    obtain ⟨he, hes⟩ := List.forall_mem_cons.mp hes
    rw [mergedIn, List.flatMap_cons, List.map_append, List.sum_append, List.map_cons, List.sum_cons]
    refine Int.add_le_add ?_ (ih hes)
    cases e with
    | merged id b r => simp [Effect.merge, Effect.addition]
    | _ => simpa [Effect.merge] using he

/-- Resolved batches are no more than are scheduled, and hold no more files than there are. -/
lemma resolved_le (hconserved : Moment.Conserved (planFor o files) ⟨t, .free⟩) :
    (resolvedIn t.effects).length ≤ (planFor o files).jobs.length ∧
      ((resolvedIn t.effects).map (·.files.length)).sum ≤ files.length := by
  have hsub : (resolvedIn t.effects).Sublist t.batches := List.sublist_append_right _ _
  have hperm := hconserved.perm_plan.map (·.files)
  rw [List.map_map, map_files_ofSchedule] at hperm
  constructor
  · have hlength := hperm.length_eq
    rw [List.length_map] at hlength
    exact hsub.length_le.trans hlength.le
  · have hsum : (t.batches.map (·.files.length)).sum = files.length := by
      have hlengths := (hperm.map List.length).sum_nat
      rw [List.map_map, ← List.length_flatten, planFor, Schedule.flatten_jobs_plan] at hlengths
      exact hlengths
    rw [← hsum]
    exact (hsub.map _).sum_le_sum fun _ _ => Nat.zero_le _

/-- A resolved batch has a number of files that 63 bits can hold. -/
lemma toInt_length_resolved (hconserved : Moment.Conserved (planFor o files) ⟨t, .free⟩)
    (hb : b ∈ resolvedIn t.effects) : (Int64.ofNat b.files.length).toInt = b.files.length := by
  have hbatch : b ∈ t.batches := List.mem_append_right _ hb
  exact Int64.toInt_ofNat_of_lt
    (Schedule.length_lt_of_mem_jobs (List.mem_of_getElem? (hconserved.files_eq hbatch)))

/-- The report counts the files of all resolved batches. -/
lemma toInt_report_files (hconserved : Moment.Conserved (planFor o files) ⟨t, .free⟩)
    (hfiles : files.length < 2 ^ 63) :
    t.state.report.files.toInt = ((resolvedIn t.effects).map (·.files.length)).sum := by
  rw [hconserved.tallied.files_eq]
  exact Int64.toInt_ofNat_of_lt ((resolved_le hconserved).2.trans_lt hfiles)

/-- What an effect adds to the report is not negative. -/
lemma isCount_addition (hconserved : Moment.Conserved (planFor o files) ⟨t, .free⟩)
    (hheard : t.Heard Result.IsCount) {e : Effect} (he : e ∈ t.effects) :
    e.addition.IsCount := by
  have hzero : 0 ≤ (0 : Int64).toInt := Int.le_refl 0
  refine hheard.addition ⟨hzero, hzero⟩ (fun r hr => ⟨hzero, hr.2⟩) (fun b cause hb => ?_) he
  have hresolved : b ∈ resolvedIn t.effects :=
    List.mem_flatMap.mpr ⟨_, hb, List.mem_singleton_self _⟩
  have hlength : 0 ≤ (Int64.ofNat b.files.length).toInt := by
    rw [toInt_length_resolved hconserved hresolved]
    exact Int.natCast_nonneg _
  exact ⟨hlength, hlength⟩

/-- **The report of a job covers its merged results.** -/
theorem covers_merged (hconserved : Moment.Conserved (planFor o files) ⟨t, .free⟩)
    (hsummed : t.Summed) (hheard : t.Heard Result.IsCount) (hfiles : files.length < 2 ^ 63)
    (hinternal : failuresIn t.effects < 2 ^ 63) :
    t.state.report.Covers ((mergedIn t.effects).map (·.2.2)) where
  isCount r hr := by
    obtain ⟨entry, hentry, rfl⟩ := List.mem_map.mp hr
    exact hheard.merged entry hentry
  files_le := by
    have hlengths : (mergedIn t.effects).map (·.2.2.files.toInt) =
        ((mergedIn t.effects).map (·.2.1)).map fun b => (b.files.length : Int) := by
      rw [List.map_map]
      refine List.map_congr_left fun entry hentry => ?_
      have hb := (map_mergedIn_sublist t.effects).subset (List.mem_map_of_mem hentry)
      rw [hsummed.files_eq entry hentry, toInt_length_resolved hconserved hb]
      rfl
    rw [toInt_report_files hconserved hfiles, Nat.cast_list_sum, List.map_map, List.map_map]
    refine le_of_eq_of_le (congrArg List.sum hlengths) ?_
    exact ((map_mergedIn_sublist t.effects).map _).sum_le_sum (by simp)
  errors_le := by
    rw [hsummed.report_eq, additions, Result.length_errors_total, List.map_map, List.map_map]
    exact sum_merged_le (fun r => (r.errors.length : Int)) fun e _ => Int.natCast_nonneg _
  internal_le := by
    have hnonneg : ∀ e ∈ t.effects, 0 ≤ e.addition.internal.toInt :=
      fun e he => (isCount_addition hconserved hheard he).2
    have hreport : t.state.report.internal.toInt = failuresIn t.effects := by
      have hsum : ((t.effects.map Effect.addition).map fun r => r.internal.toInt).sum =
          failuresIn t.effects := by
        rw [List.map_map]
        rfl
      rw [hsummed.report_eq, additions, ← hsum]
      refine Result.toInt_total Result.internal rfl (fun _ _ => rfl) ?_ (hsum ▸ hinternal)
      rintro _ hr
      obtain ⟨e, he, rfl⟩ := List.mem_map.mp hr
      exact hnonneg e he
    rw [hreport, List.map_map]
    exact sum_merged_le (fun r => r.internal.toInt) hnonneg

end Books

section Coordinate

variable (o : Options) (world : World) (cancelOn : Option Event.Kind) (cancelled : Bool)
  (files : List Bytes) (occasions : List Occasion)

/-- The event at the start of a job on worker processes. -/
def firstEvent : Event := startEvent (planFor o files).processes (planFor o files).jobs files

/-- The turn in which a job on worker processes ends. Observers may have cancelled the job when they
heard of its start. -/
def lastTurn : Turn :=
  course o world cancelOn (cancelled || cancels cancelOn [firstEvent o files]) files occasions

/-- A job that stands as done is so, even if it was cancelled. -/
lemma status_of_standing {c : Bool} {s : State} (hwaiting : standing c s ≠ .waiting)
    (herror : (standing c s).error? = none) : s.status = .done := by
  unfold standing at hwaiting herror
  cases hstatus : s.status with
  | done => rfl
  | failed e =>
    rw [hstatus] at herror
    cases herror
  | waiting =>
    rw [hstatus] at hwaiting herror
    cases c with
    | false => exact absurd rfl hwaiting
    | true => cases herror

/-- **What a job on worker processes leaves behind.** It tells its start, what comes along, and its
end unless it still goes on. -/
theorem coordinate_cases {files : List Bytes} (hfiles : files ≠ []) :
    ∃ finished : Option Event,
      (coordinate o world cancelOn cancelled files occasions).report =
        (lastTurn o world cancelOn cancelled files occasions).state.report ∧
      (coordinate o world cancelOn cancelled files occasions).events = firstEvent o files ::
        (eventsOf (lastTurn o world cancelOn cancelled files occasions).effects ++
          finished.toList) ∧
      (∀ e ∈ finished, e = finishEvent
        (coordinate o world cancelOn cancelled files occasions).report
        (coordinate o world cancelOn cancelled files occasions).error) ∧
      (finished ≠ none →
        (coordinate o world cancelOn cancelled files occasions).error = none →
        (lastTurn o world cancelOn cancelled files occasions).state.status = .done) := by
  have hempty : files.isEmpty = false := by simpa using hfiles
  unfold coordinate
  rw [if_neg (by simp [hempty])]
  dsimp only
  split
  · refine ⟨none, rfl, rfl, ?_, fun hnone => absurd rfl hnone⟩
    intro e he
    cases he
  · rename_i hwaiting
    refine ⟨some _, rfl, rfl, ?_, fun _ herror => status_of_standing hwaiting herror⟩
    intro e he
    exact (Option.some.inj he).symm

variable {o world cancelOn cancelled files occasions}

/-- **The events of a job on worker processes**, if it hears results with sensible counts only. -/
theorem trail_coordinate (hfiles : files ≠ []) (hreports : Reports Result.IsCount occasions)
    (hlength : files.length < 2 ^ 63)
    (hevents : (coordinate o world cancelOn cancelled files occasions).events.length < 2 ^ 63)
    (herrors :
      (coordinate o world cancelOn cancelled files occasions).report.errors.length < 2 ^ 63)
    (hinternal :
      failuresIn (lastTurn o world cancelOn cancelled files occasions).effects < 2 ^ 63) :
    ∃ finished, (coordinate o world cancelOn cancelled files occasions).events =
        firstEvent o files :: (eventsOf
          (lastTurn o world cancelOn cancelled files occasions).effects ++ finished.toList) ∧
      Event.Trail (firstEvent o files)
        (eventsOf (lastTurn o world cancelOn cancelled files occasions).effects) finished
        ((coordinate o world cancelOn cancelled files occasions).error ≠ none) := by
  obtain ⟨finished, hreport, heq, hfinished, hdone⟩ :=
    coordinate_cases o world cancelOn cancelled occasions hfiles
  refine ⟨finished, heq, ?_⟩
  rw [heq, List.length_cons, List.length_append] at hevents
  rw [hreport] at herrors hfinished
  generalize ht : lastTurn o world cancelOn cancelled files occasions = t at *
  have hconserved : Moment.Conserved (planFor o files) ⟨t, .free⟩ :=
    ht ▸ course_conserved o world cancelOn _ files occasions
  have hsummed : t.Summed := ht ▸ course_summed o world cancelOn _ files occasions
  have hheard : t.Heard Result.IsCount := ht ▸ course_heard o world cancelOn _ files hreports
  have hmerged : (mergedIn t.effects).length ≤ (planFor o files).jobs.length := by
    have hsub := (map_mergedIn_sublist t.effects).length_le
    rw [List.length_map] at hsub
    exact hsub.trans (resolved_le hconserved).1
  have hjobs : (planFor o files).jobs.length ≤ files.length := Schedule.length_jobs_le ..
  refine trail_of_covers rfl hsummed.along (by omega) hsummed.completed_anonymous
    (covers_merged hconserved hsummed hheard hlength hinternal) ?_ ?_ herrors hfinished ?_
  · change _ ≤ (Int64.ofNat (planFor o files).jobs.length).toInt
    rw [Int64.toInt_ofNat_of_lt (hjobs.trans_lt hlength), List.length_map]
    exact Int.ofNat_le.mpr hmerged
  · change _ ≤ (Int64.ofNat files.length).toInt
    rw [Int64.toInt_ofNat_of_lt hlength, toInt_report_files hconserved hlength]
    exact Int.ofNat_le.mpr (resolved_le hconserved).2
  · intro hsome herror
    have hall := hconserved.files_of_done (hdone hsome herror)
    rwa [planFor, Schedule.flatten_jobs_plan] at hall

end Coordinate

/-! ## In the running process -/

section InProcess

variable {σ : Type} {x : Examiner σ} {batch files : List Bytes} {jobs : List (List Bytes)}
  {rs : List Result}

/-- Whether a result counts the files of a batch, and no more failures than these. -/
def CountsBatch (batch : List Bytes) (r : Result) : Prop :=
  r.files.toInt = batch.length ∧ 0 ≤ r.internal.toInt ∧ r.internal.toInt ≤ batch.length

/-- **A batch has no more failures than files.** -/
theorem countsBatch_analyseBatch (x : Examiner σ) (memory : σ) (hbatch : batch.length < 2 ^ 63) :
    CountsBatch batch (x.analyseBatch memory batch).1 := by
  have hcalls : (x.calls memory batch).length = batch.length := by
    rw [← List.length_map (·.1), Examiner.map_fst_calls]
  have hsums := Result.sumsUp_total (x.calls memory batch)
  have hfailed := hsums.internal_le
  rw [← Examiner.analyseBatch_eq_total] at hsums
  rw [hcalls] at hfailed
  refine ⟨?_, ?_, ?_⟩
  · rw [hsums.files_eq, hcalls, Int64.toInt_ofNat_of_lt hbatch]
  · rw [hsums.internal_eq, Int64.toInt_ofNat_of_lt (hfailed.trans_lt hbatch)]
    exact Int.natCast_nonneg _
  · rw [hsums.internal_eq, Int64.toInt_ofNat_of_lt (hfailed.trans_lt hbatch)]
    exact Int.ofNat_le.mpr hfailed

/-- The results of batches that were analysed one after the other count these batches. -/
lemma countsBatch_of_analysed
    (h : List.Forall₂ (fun batch r => ∃ memory, r = (x.analyseBatch memory batch).1) jobs rs)
    (hlength : jobs.flatten.length < 2 ^ 63) : List.Forall₂ CountsBatch jobs rs := by
  refine List.forall₂_iff_zip.mpr ⟨h.length_eq, fun {batch r} hmem => ?_⟩
  obtain ⟨memory, rfl⟩ := (List.forall₂_iff_zip.mp h).2 hmem
  have hle := (List.sublist_flatten_of_mem (List.of_mem_zip hmem).1).length_le
  exact countsBatch_analyseBatch x memory (hle.trans_lt hlength)

/-- The results of batches count all files, and no more failures than these. -/
lemma sum_counts (h : List.Forall₂ CountsBatch jobs rs) :
    (∀ r ∈ rs, r.IsCount) ∧ (rs.map (·.files.toInt)).sum = jobs.flatten.length ∧
      (rs.map (·.internal.toInt)).sum ≤ jobs.flatten.length := by
  induction h with
  | nil => exact ⟨List.forall_mem_nil _, rfl, Int.le_refl 0⟩
  | @cons batch r jobs rs hr hrs ih =>
    obtain ⟨hcounts, hfiles, hinternal⟩ := ih
    obtain ⟨hbatch, hzero, hle⟩ := hr
    rw [List.map_cons, List.sum_cons, List.map_cons, List.sum_cons, List.flatten_cons,
      List.length_append, hfiles, hbatch, Nat.cast_add]
    refine ⟨List.forall_mem_cons.mpr ⟨⟨?_, hzero⟩, hcounts⟩, rfl, by omega⟩
    rw [hbatch]
    exact Int.natCast_nonneg _

/-- The total of the results of batches counts their files, and covers the results. -/
lemma covers_results (h : List.Forall₂ CountsBatch jobs rs)
    (hlength : jobs.flatten.length < 2 ^ 63) :
    (Result.total rs).files.toInt = jobs.flatten.length ∧ (Result.total rs).Covers rs := by
  obtain ⟨hcounts, hfiles, hinternal⟩ := sum_counts h
  have htotal : (Result.total rs).files.toInt = jobs.flatten.length := by
    rw [Result.toInt_total Result.files rfl (fun _ _ => rfl) (fun r hr => (hcounts r hr).1)
      (by omega), hfiles]
  refine ⟨htotal, hcounts, ?_, (Result.length_errors_total _).ge, ?_⟩
  · rw [hfiles, htotal]
  · rw [Result.toInt_total Result.internal rfl (fun _ _ => rfl) (fun r hr => (hcounts r hr).2)
      (by omega)]

/-- **The events of a job in the running process**, whenever it is cancelled. -/
theorem trail_examineHere (jobSize : Int64) (x : Examiner σ) (stopped : σ → Bool) (memory : σ)
    (hlength : files.length < 2 ^ 63)
    (herrors : (examineHere jobSize x stopped memory files).report.errors.length < 2 ^ 63) :
    ∃ started along finished, (examineHere jobSize x stopped memory files).events =
        started :: (along ++ Option.toList finished) ∧
      Event.Trail started along finished
        ((examineHere jobSize x stopped memory files).error ≠ none) := by
  have hflatten := Schedule.flatten_jobs_plan files 1 jobSize 1
  have hjobs := Schedule.length_jobs_le files 1 jobSize 1
  unfold examineHere at herrors ⊢
  dsimp only at herrors ⊢
  generalize (Schedule.plan files 1 jobSize 1).jobs = jobs at *
  obtain ⟨n, hn, rs, hrs, hreport, hevents, herror⟩ :=
    examineJobs_batches x stopped memory { events := [startEvent 0 jobs files] } jobs
  generalize examineJobs x stopped memory { events := [startEvent 0 jobs files] } jobs = job at *
  rw [Result.empty_merge] at hreport
  rw [hreport] at herrors
  have htake : (jobs.take n).flatten.length ≤ files.length := by
    rw [← hflatten]
    exact (List.take_sublist n jobs).flatten.length_le
  have hreached : (jobs.take n).flatten.length < 2 ^ 63 := htake.trans_lt hlength
  obtain ⟨hfiles, hcovers⟩ := covers_results (countsBatch_of_analysed hrs hreached) hreached
  have hlen : rs.length = n := by
    rw [← hrs.length_eq, List.length_take_of_le hn]
  have hstarted : (Int64.ofNat files.length).toInt = files.length :=
    Int64.toInt_ofNat_of_lt hlength
  refine ⟨startEvent 0 jobs files, rs.map batchEvent,
    some (finishEvent job.report job.error), ?_, ?_⟩
  · rw [hevents]
    rfl
  rw [hreport]
  refine trail_of_covers rfl ?_ ?_ ?_ hcovers ?_ ?_ herrors ?_ ?_
  · rintro _ he
    obtain ⟨r, -, rfl⟩ := List.mem_map.mp he
    exact ⟨by simp [batchEvent], by simp [batchEvent]⟩
  · rw [List.length_map, hlen]
    omega
  · rw [completed, List.filter_eq_self.mpr (by simp [batchEvent]), List.map_map]
    rfl
  · change _ ≤ (Int64.ofNat jobs.length).toInt
    rw [Int64.toInt_ofNat_of_lt (by omega), hlen]
    exact Int.ofNat_le.mpr hn
  · change _ ≤ (Int64.ofNat files.length).toInt
    rw [hfiles, hstarted]
    exact Int.ofNat_le.mpr htake
  · intro e he
    exact (Option.some.inj he).symm
  · intro _ hnone
    -- without an error all batches were reached
    have hall : ¬ n < jobs.length := by
      intro hlt
      rw [herror, if_pos hlt] at hnone
      cases hnone
    rw [List.take_of_length_le (Nat.not_lt.mp hall), hflatten] at hfiles
    refine Int64.toInt_inj.mp ?_
    change _ = (Int64.ofNat files.length).toInt
    rw [hstarted, hfiles]

end InProcess

/-! ## What the dashboard shows -/

/-- **The dashboard shows a job steadily.** Take any dashboard with open mailboxes, and the events
of any job, whatever their stamps and whenever the job is cancelled: on worker processes after any
occasion, and in the running process at any file. If the job is on worker processes, let the results
that it hears have no negative counts, and let the totals fit in 63 bits. Then the dashboard follows
all events; after each of them the batches and files done are not more than there are, no counter
decreases, not even in the end, and there the job is shown to have failed or finished with all files
done. -/
theorem job_shown_steadily (d : Dashboard) (hopen : d.hub.Open) :
    (∀ o world cancelOn cancelled files occasions events,
      Reports Result.IsCount occasions → files.length < 2 ^ 63 →
      (coordinate o world cancelOn cancelled files occasions).events.length < 2 ^ 63 →
      (coordinate o world cancelOn cancelled files occasions).report.errors.length < 2 ^ 63 →
      failuresIn (lastTurn o world cancelOn cancelled files occasions).effects < 2 ^ 63 →
      events.map Event.plain = (coordinate o world cancelOn cancelled files occasions).events →
      d.Steady events ((coordinate o world cancelOn cancelled files occasions).error ≠ none)) ∧
    ∀ (σ : Type) jobSize (x : Examiner σ) stopped memory files events, files.length < 2 ^ 63 →
      (examineHere jobSize x stopped memory files).report.errors.length < 2 ^ 63 →
      events.map Event.plain = (examineHere jobSize x stopped memory files).events →
      d.Steady events ((examineHere jobSize x stopped memory files).error ≠ none) := by
  constructor
  · intro o world cancelOn cancelled files occasions events hreports hlength hcount herrors
      hinternal hevents
    by_cases hfiles : files = []
    · subst hfiles
      rw [List.map_eq_nil_iff.mp hevents]
      exact Dashboard.steady_nil d _
    · obtain ⟨finished, heq, htrail⟩ :=
        trail_coordinate hfiles hreports hlength hcount herrors hinternal
      exact Dashboard.steady_of_trail hopen htrail (hevents.trans heq)
  · intro σ jobSize x stopped memory files events hlength herrors hevents
    obtain ⟨started, along, finished, heq, htrail⟩ :=
      trail_examineHere jobSize x stopped memory hlength herrors
    exact Dashboard.steady_of_trail hopen htrail (hevents.trans heq)

/-- A worker answers two batches and reports a failure between them; then the job turns out to be
cancelled, while a third batch is being analysed. -/
def halted : List Occasion :=
  [{ happening := .hello (.worker 0) [] },
    { happening := .result 0 { files := 1, internal := 1 } },
    { happening := .result 0 (.ofFailure (utf8 "no")) },
    { happening := .result 0 { files := 1 }, cancels := true },
    { happening := .lost 0 (utf8 "gone") }]

/-- The job with three batches to which this happens. -/
def haltedJob : Job :=
  coordinate { jobSize := 1, retries := 0 } {} none false [utf8 "a", utf8 "b", utf8 "c"] halted

/-- What comes of this job: a partial report. -/
lemma haltedJob_eq :
    haltedJob =
      { report := { errors := [.failure (utf8 "no")], files := 2, internal := 2 }
        error := some .cancelled
        cancelled := true
        events :=
          [{ kind := .jobStarted, processes := 1, batches := 3, files := 3 },
            { kind := .workerConnected, worker := utf8 "w1" },
            { kind := .batchCompleted, worker := utf8 "w1", files := 1, internalErrors := 1 },
            { kind := .batchCompleted, worker := utf8 "w1", files := 1 },
            { kind := .jobFinished, files := 2, diagnostics := 1, internalErrors := 2
              error := utf8 "context canceled" }] } := by
  cbv

/-- The failures of this job: one in a batch, and one that was kept. -/
lemma failuresIn_halted :
    failuresIn (lastTurn { jobSize := 1, retries := 0 } {} none false
      [utf8 "a", utf8 "b", utf8 "c"] halted).effects = 2 := by
  cbv

/-- An analyzer that counts its calls and fails at the first one. -/
def counting : Examiner Nat := fun n _ =>
  (if n = 0 then .failed (utf8 "no") else .done [] true, n + 1)

/-- A job in the running process that is cancelled, by somebody else, at its second call. -/
def interruptedJob : Job := examineHere (-3) counting (2 ≤ ·) 0 [utf8 "a", utf8 "a", utf8 "a"]

/-- What comes of this job. -/
lemma interruptedJob_eq :
    interruptedJob =
      { report := { errors := [.internalError (utf8 "a") (utf8 "no")], files := 2, internal := 1
                    infer := true }
        error := some .cancelled
        events :=
          [{ kind := .jobStarted, batches := 3, files := 3 },
            { kind := .batchCompleted, files := 1, diagnostics := 1, internalErrors := 1 },
            { kind := .batchCompleted, files := 1 },
            { kind := .jobFinished, files := 2, diagnostics := 1, internalErrors := 1
              error := utf8 "context canceled" }]
        calls := [(utf8 "a", .failed (utf8 "no")), (utf8 "a", .done [] true)]
        cancelled := true } := by cbv

/-- The dashboard shows a job that is cancelled while a worker is busy, and one that is cancelled in
the running process. -/
theorem halted_job_shown_steadily :
    Reports Result.IsCount halted ∧
      Dashboard.Steady {} haltedJob.events (haltedJob.error ≠ none) ∧
      Dashboard.Steady {} interruptedJob.events (interruptedJob.error ≠ none) := by
  have hreports : Reports Result.IsCount halted := by
    simp [Reports, halted, Result.IsCount, Result.ofFailure]
  obtain ⟨hcoordinated, hinProcess⟩ := job_shown_steadily {} (List.forall_mem_nil _)
  refine ⟨hreports, ?_, ?_⟩
  · refine hcoordinated _ _ _ _ _ _ _ hreports (by simp) ?_ ?_ ?_ ?_
    · change haltedJob.events.length < 2 ^ 63
      rw [haltedJob_eq]
      decide
    · change haltedJob.report.errors.length < 2 ^ 63
      rw [haltedJob_eq]
      decide
    · rw [failuresIn_halted]
      decide
    · change haltedJob.events.map Event.plain = haltedJob.events
      rw [haltedJob_eq]
      rfl
  · refine hinProcess _ _ _ _ _ _ _ (by simp) ?_ ?_
    · change interruptedJob.report.errors.length < 2 ^ 63
      rw [interruptedJob_eq]
      decide
    · change interruptedJob.events.map Event.plain = interruptedJob.events
      rw [interruptedJob_eq]
      rfl

end LintPool.Pool
