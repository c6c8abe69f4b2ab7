import LintPool.Proofs.Pool.InProcess
import LintPool.Proofs.Pool.Tally
import LintPool.Proofs.Run.InProcess

/-!
# Failures are counted

A result lists its failures among the diagnostics, and counts them besides. The two are kept up
separately: when files of a batch fail, when results are merged or kept, when a batch is given up
and when entries from a cache come in. If the results of all workers count what they list, then so
does every report that comes of them.

## Main definitions

* `LintPool.Result.CountsFailures` : a result counts the failures that it lists.
* `LintPool.Analyzer.FindsOnly` : an analyzer reports findings in files only.
* `LintPool.Pool.Job.Counted` : a job of workers or an analyzer of this kind.
* `LintPool.Runner.Filled` : a store in which nothing was put but by runs.

## Main results

* `LintPool.Analyzer.FindsOnly.countsFailures` : the results of batches count their failures.
* `LintPool.Rule.findsOnly_analyzer` : the rules are an analyzer of this kind.
* `LintPool.Pool.course_countsFailures`, `LintPool.Pool.analyseJobs_countsFailures` : and so do the
  reports of jobs, at any time.
* `LintPool.Runner.failures_counted` : and so do the summaries of runs.
-/

namespace LintPool

/-! ## Results -/

namespace Result

/-- A result counts the failures that it lists. The length of the list is taken as a word, like all
counts. -/
def CountsFailures (r : Result) : Prop := r.internal = Int64.ofNat r.otherErrors.length

section Counting

variable {r s : Result} {rs : List Result}

/-- Merged results count their failures if both do. -/
lemma CountsFailures.merge (hr : r.CountsFailures) (hs : s.CountsFailures) :
    (r.merge s).CountsFailures := by
  rw [CountsFailures, otherErrors_merge, List.length_append, Int64.ofNat_add, ← hr, ← hs]
  rfl

/-- A total counts its failures if all results do. -/
lemma countsFailures_total (hrs : ∀ r ∈ rs, r.CountsFailures) : (total rs).CountsFailures := by
  induction rs with
  | nil => rfl
  | cons r rs ih =>
    obtain ⟨hr, hrs⟩ := List.forall_mem_cons.mp hrs
    rw [total_cons]
    exact hr.merge (ih hrs)

/-- The result of a worker whose connection failed counts one failure. -/
lemma countsFailures_ofFailure (cause : Bytes) : (ofFailure cause).CountsFailures := rfl

/-- A result without failures that counts none. -/
lemma countsFailures_of_findings (hinternal : r.internal = 0)
    (herrors : ∀ d ∈ r.errors, d.isFileSpecific = true) : r.CountsFailures := by
  have hnone : r.otherErrors = [] :=
    List.filter_eq_nil_iff.mpr fun d hd => by simp [herrors d hd]
  rw [CountsFailures, hinternal, hnone]
  rfl

end Counting

end Result

/-! ## Batches -/

/-- Whether all that was found lies in files. -/
def Outcome.FindsOnly : Outcome → Prop
  | .done diagnostics _ => ∀ d ∈ diagnostics, d.isFileSpecific = true
  | _ => True

/-- The result of a file counts its failure, if there is one. -/
lemma Outcome.FindsOnly.countsFailures {outcome : Outcome} (h : outcome.FindsOnly) (file : Bytes) :
    (outcome.result file).CountsFailures := by
  cases outcome with
  | done diagnostics infer => exact Result.countsFailures_of_findings rfl h
  | failed cause => rfl
  | crashed reason => rfl

namespace Analyzer

/-- Whether all that an analyzer finds lies in files. -/
def FindsOnly (analyzer : Analyzer) : Prop :=
  ∀ cancelled file, (analyzer cancelled file).outcome.FindsOnly

variable {analyzer : Analyzer} {files : List Bytes}

/-- The outcomes of a batch are what the analyzer makes of files. -/
lemma FindsOnly.of_mem_outcomes (h : analyzer.FindsOnly) {cancelled : Bool} {outcome : Outcome}
    (hmem : outcome ∈ analyzer.outcomes cancelled files) : outcome.FindsOnly := by
  induction files generalizing cancelled with
  | nil => cases hmem
  | cons file files ih =>
    rcases List.mem_cons.mp hmem with rfl | hmem
    · exact h cancelled file
    · exact ih hmem

/-- **The result of a batch counts its failures.** -/
theorem FindsOnly.countsFailures (h : analyzer.FindsOnly) (cancelled : Bool) (files : List Bytes) :
    (analyseBatch analyzer cancelled files).result.CountsFailures := by
  rw [result_analyseBatch]
  refine Result.countsFailures_total ?_
  rintro _ hr
  obtain ⟨⟨file, outcome⟩, hmem, rfl⟩ := List.mem_map.mp hr
  exact (h.of_mem_outcomes (List.of_mem_zip hmem).2).countsFailures file

end Analyzer

namespace Rule

/-- Rules find something in the file that they check. -/
lemma isFileSpecific_of_mem_check {level : Int64} {file source : Bytes} {d : Diagnostic}
    (hd : d ∈ check level file source) : d.isFileSpecific = true := by
  obtain ⟨rule, -, hrule⟩ := List.mem_flatMap.mp hd
  cases rule with
  | constantCondition | strictComparison =>
    obtain ⟨hit, -, hfinding⟩ := List.mem_filterMap.mp hrule
    obtain ⟨message, -, rfl⟩ := Option.map_eq_some_iff.mp hfinding
    rfl

/-- **The rules report findings in files only**, whatever the level and however files are read. -/
theorem findsOnly_analyzer (level : Int64) (read : Bytes → Except Bytes Bytes) :
    (analyzer level read).FindsOnly := by
  intro cancelled file
  cases cancelled with
  | true => exact trivial
  | false =>
    rw [analyzer]
    cases read file with
    | error cause => exact trivial
    | ok content => exact fun d hd => isFileSpecific_of_mem_check hd

end Rule

/-! ## Jobs -/

namespace Pool

/-- What an effect adds to the report counts its failures, if all results do that were heard. -/
lemma countsFailures_addition {t : Turn} (hheard : t.Heard Result.CountsFailures) {e : Effect}
    (he : e ∈ t.effects) : e.addition.CountsFailures := by
  refine hheard.addition rfl (fun r hr => hr) (fun b cause _ => ?_) he
  have hall : Result.otherErrors (Effect.escalated b cause).addition =
      abandonment b.attempts cause b.files := by
    refine List.filter_eq_self.mpr ?_
    rintro _ hd
    obtain ⟨file, -, rfl⟩ := List.mem_map.mp hd
    rfl
  rw [Result.CountsFailures, hall, abandonment, List.length_map]
  rfl

/-- **The report of a job on worker processes counts its failures at any time**, if the results do
that happen to the job. -/
theorem course_countsFailures (o : Options) (world : World) (cancelOn : Option Event.Kind)
    (cancelled : Bool) (files : List Bytes) {occasions : List Occasion}
    (hreports : Reports Result.CountsFailures occasions) :
    (course o world cancelOn cancelled files occasions).state.report.CountsFailures := by
  have hheard := course_heard o world cancelOn cancelled files hreports
  rw [(course_summed o world cancelOn cancelled files occasions).report_eq, additions]
  refine Result.countsFailures_total ?_
  rintro _ hr
  obtain ⟨e, he, rfl⟩ := List.mem_map.mp hr
  exact countsFailures_addition hheard he

/-- **The report of a job in the running process counts its failures**, however many batches it has
come through. -/
theorem analyseJobs_countsFailures {analyzer : Analyzer} (h : analyzer.FindsOnly) (cancelled : Bool)
    {job : Job} (hjob : job.report.CountsFailures) (jobs : List (List Bytes)) :
    (analyseJobs analyzer cancelled job jobs).report.CountsFailures := by
  obtain ⟨n, -, rs, hrs, hreport, -⟩ :=
    examineJobs_batches analyzer.examiner id cancelled job jobs
  have hcounts : ∀ r ∈ rs, r.CountsFailures := by
    clear hreport
    generalize jobs.take n = reached at hrs
    induction hrs with
    | nil => exact List.forall_mem_nil _
    | @cons batch r reached rs hr _ ih =>
      obtain ⟨cancelled, rfl⟩ := hr
      exact List.forall_mem_cons.mpr ⟨h.countsFailures cancelled batch, ih⟩
  rw [analyseJobs, hreport]
  exact hjob.merge (Result.countsFailures_total hcounts)

/-- A job of workers whose results count their failures, or of an analyzer that reports findings in
files only. -/
inductive Job.Counted : Job → Prop
  | coordinated {o : Options} {world : World} {cancelOn : Option Event.Kind} {cancelled : Bool}
      {files : List Bytes} {occasions : List Occasion}
      (h : Reports Result.CountsFailures occasions) :
    Counted (coordinate o world cancelOn cancelled files occasions)
  | here {jobSize : Int64} {analyzer : Analyzer} {cancelled : Bool} {files : List Bytes}
      (h : analyzer.FindsOnly) : Counted (analyseHere jobSize analyzer cancelled files)

/-- The report of such a job counts its failures. -/
lemma Job.Counted.countsFailures {job : Job} (h : job.Counted) : job.report.CountsFailures := by
  cases h with
  | here h =>
    refine analyseJobs_countsFailures h _ ?_ _
    rfl
  | coordinated h =>
    unfold coordinate
    split
    · rfl
    · exact course_countsFailures _ _ _ _ _ h

end Pool

/-! ## Runs -/

namespace Runner

/-- A store in which nothing was put but by runs, of whatever jobs. Old rows may have been taken
away, and the store may have been closed. -/
inductive Filled : Cache.Store → Prop
  | none : Filled .none
  | empty (ttl : Duration) : Filled (.table { ttl })
  | run {r : Runner} {tree : Tree} {store : Cache.Store} {now : Cache.Instant} {cancelled : Bool}
      {roots : List Bytes} {run : Run} (h : Filled store)
      (hrun : r.run tree store now cancelled roots = .ok run) : Filled run.store
  | pruned {t t' : Cache.Table} {now : Cache.Instant} {n : Nat} (h : Filled (.table t))
      (hprune : t.prune now = .ok (t', n)) : Filled (.table t')
  | closed {t : Cache.Table} (h : Filled (.table t)) : Filled (.table t.close)

/-- Every row of a table has the entry of a file. -/
def Kept (t : Cache.Table) : Prop :=
  ∀ row ∈ t.rows, ∃ report file, row.data = (entryFor report file).encode

section Stores

variable {t t' : Cache.Table} {now : Cache.Instant} {report : Report} {l : Lookup}

/-- Keeping an outcome puts the entry of a file. -/
lemma Kept.keepOne (h : Kept t) (now : Cache.Instant) (report : Report) (l : Lookup) :
    Kept (keepOne now report t l) := by
  unfold Runner.keepOne
  split
  · rename_i key _ _
    split
    · exact h
    · rw [Cache.Table.put]
      split
      · exact h
      · intro row hrow
        rcases Cache.Table.mem_insert hrow with hrow | rfl
        · exact h row hrow
        · exact ⟨report, l.file, rfl⟩
  · exact h

/-- Keeping outcomes puts entries of files. -/
lemma Kept.keep (h : Kept t) (now : Cache.Instant) (report : Report) (lookups : List Lookup) :
    Kept (lookups.foldl (Runner.keepOne now report) t) := by
  induction lookups generalizing t with
  | nil => exact h
  | cons l lookups ih => exact ih (h.keepOne now report l)

/-- Pruning leaves entries of files. -/
lemma Kept.prune (h : Kept t) {n : Nat} (hprune : t.prune now = .ok (t', n)) : Kept t' := by
  rw [Cache.Table.prune] at hprune
  split at hprune
  · obtain ⟨rfl, -⟩ := Prod.mk.inj (Except.ok.inj hprune)
    exact h
  · split at hprune
    · cases hprune
    · rw [List.partition_eq_filter_filter] at hprune
      obtain ⟨rfl, -⟩ := Prod.mk.inj (Except.ok.inj hprune)
      exact fun row hrow => h row (List.mem_of_mem_filter hrow)

/-- What is served from entries of files counts its failures: there are none. -/
lemma Kept.countsFailures (h : Kept t) {key : Bytes} {e : Cache.Entry}
    (he : served (.table t) now key = some e) : e.result.CountsFailures := by
  obtain ⟨row, hrow, -, -, hdecode⟩ := of_served he
  obtain ⟨report, file, hdata⟩ := h row hrow
  rw [hdata, Cache.Entry.decode_encode] at hdecode
  obtain rfl := Except.ok.inj hdecode
  refine Result.countsFailures_of_findings rfl ?_
  rintro _ hd
  obtain ⟨d, hmem, rfl⟩ := List.mem_map.mp hd
  exact (Bool.and_eq_true_iff.mp (List.mem_filter.mp hmem).2).1

end Stores

section Runs

variable {r : Runner} {tree : Tree} {store : Cache.Store} {now : Cache.Instant} {cancelled : Bool}
  {roots files : List Bytes} {lookups : List Lookup} {run : Run}

/-- What is known about a file is served by the store. -/
lemma served_of_lookUp {file : Bytes} {l : Lookup} {e : Cache.Entry}
    (h : r.lookUp tree store now cancelled file = .ok l) (he : l.entry = some e) :
    ∃ key, served store now key = some e := by
  unfold lookUp at h
  split at h
  · obtain rfl := Except.ok.inj h
    cases he
  · split at h
    · cases h
    · obtain rfl := Except.ok.inj h
      exact ⟨_, he⟩

/-- **What a run is made of**: what is known about the files, and a job on the others. -/
lemma of_run (h : r.run tree store now cancelled roots = .ok run) :
    ∃ lookups job,
      (∀ l ∈ lookups, ∀ e, l.entry = some e → ∃ key, served store now key = some e) ∧
      (job = { cancelled } ∨ ∃ files, job = r.job cancelled files) ∧
      run.summary.report = job.report.merge (cachedReport lookups) ∧
      run.store = Runner.keep store now lookups job := by
  unfold Runner.run at h
  split at h
  · cases h
  · split at h
    · cases h
    · rename_i lookups hlookups
      obtain rfl := Except.ok.inj h
      refine ⟨lookups, _, fun l hl e he => ?_, ?_, rfl, rfl⟩
      · obtain ⟨file, -, hlookUp⟩ := exists_of_mem_mapM hlookups hl
        exact served_of_lookUp hlookUp he
      · split
        · exact .inl rfl
        · exact .inr ⟨_, rfl⟩

/-- A store that was filled by runs holds entries of files. -/
lemma Filled.kept (h : Filled store) : ∀ t, store = .table t → Kept t := by
  induction h with
  | none =>
    rintro t h
    cases h
  | empty ttl =>
    rintro t h
    obtain rfl := Cache.Store.table.inj h
    exact List.forall_mem_nil _
  | @run r tree store now cancelled roots run _ hrun ih =>
    intro t ht
    obtain ⟨lookups, job, -, -, -, hstore⟩ := of_run hrun
    rw [hstore] at ht
    cases store with
    | none => cases ht
    | table t₀ =>
      rw [Runner.keep] at ht
      split at ht
      · obtain rfl := Cache.Store.table.inj ht
        exact ih t₀ rfl
      · obtain rfl := Cache.Store.table.inj ht
        exact (ih t₀ rfl).keep now job.report lookups
  | pruned _ hprune ih =>
    intro t ht
    obtain rfl := Cache.Store.table.inj ht
    exact (ih _ rfl).prune hprune
  | @closed t₀ _ ih =>
    intro t ht
    obtain rfl := Cache.Store.table.inj ht
    exact ih t₀ rfl

/-- What a store that was filled by runs serves counts its failures. -/
lemma Filled.countsFailures (h : Filled store) {key : Bytes} {e : Cache.Entry}
    (he : served store now key = some e) : e.result.CountsFailures := by
  cases store with
  | none => cases he
  | table t => exact (h.kept t rfl).countsFailures he

/-- A run that finds its files comes to something, whatever the store, unless it is cancelled. -/
lemma exists_run (hfind : r.finder.find tree roots = .ok files) (store : Cache.Store)
    (now : Cache.Instant) : ∃ run, r.run tree store now false roots = .ok run := by
  have hlookUp : ∀ file, ∃ l, r.lookUp tree store now false file = .ok l := by
    intro file
    have hopen : refuses store false = false := by cases store <;> rfl
    unfold lookUp
    cases tree.read file with
    | error e => exact ⟨_, rfl⟩
    | ok content =>
      rw [hopen]
      exact ⟨_, rfl⟩
  choose known hknown using hlookUp
  have hlookups : files.mapM (r.lookUp tree store now false) = .ok (files.map known) := by
    rw [funext hknown]
    exact List.mapM_pure
  simp only [Runner.run, hfind, hlookups]
  exact ⟨_, rfl⟩

/-- **Failures are counted.** The rules report findings in files only. Every result that such an
analyzer makes of a batch counts its failures, and so does the last result of a failed worker. If
all results that happen to a job on worker processes count theirs, so does its report at any time,
and the same holds of a job in the running process, however many batches it has come through. The
summary of a run with such a job counts the failures that it lists, also with the entries from a
store that earlier runs filled. -/
theorem failures_counted :
    (∀ level read, (Rule.analyzer level read).FindsOnly) ∧
    (∀ analyzer : Analyzer, analyzer.FindsOnly → ∀ cancelled files,
      (analyseBatch analyzer cancelled files).result.CountsFailures) ∧
    (∀ cause, (Result.ofFailure cause).CountsFailures) ∧
    (∀ o world cancelOn cancelled files occasions,
      Pool.Reports Result.CountsFailures occasions →
      (Pool.course o world cancelOn cancelled files occasions).state.report.CountsFailures) ∧
    (∀ analyzer : Analyzer, analyzer.FindsOnly → ∀ cancelled events jobs,
      (Pool.analyseJobs analyzer cancelled { events } jobs).report.CountsFailures) ∧
    ∀ (r : Runner) tree store now cancelled roots run, Filled store →
      (∀ cancelled files, (r.job cancelled files).Counted) →
      r.run tree store now cancelled roots = .ok run → run.summary.report.CountsFailures := by
  refine ⟨Rule.findsOnly_analyzer, fun analyzer h => h.countsFailures,
    Result.countsFailures_ofFailure, ?_, ?_, ?_⟩
  · intro o world cancelOn cancelled files occasions h
    exact Pool.course_countsFailures o world cancelOn cancelled files h
  · intro analyzer h cancelled events jobs
    refine Pool.analyseJobs_countsFailures h cancelled ?_ jobs
    rfl
  · intro r tree store now cancelled roots run hfilled hjobs hrun
    obtain ⟨lookups, job, hserved, hjob, hreport, -⟩ := of_run hrun
    have hcounted : job.report.CountsFailures := by
      rcases hjob with rfl | ⟨files, rfl⟩
      · rfl
      · exact (hjobs cancelled files).countsFailures
    rw [hreport, cachedReport_eq]
    refine hcounted.merge (Result.countsFailures_total ?_)
    rintro _ hresult
    obtain ⟨e, he, rfl⟩ := List.mem_map.mp hresult
    obtain ⟨l, hl, hentry⟩ := List.mem_filterMap.mp he
    obtain ⟨key, hkey⟩ := hserved l hl e hentry
    exact hfilled.countsFailures hkey

end Runs

/-- A runner with one worker process and with no second attempts, given what happens in its jobs. -/
def hurried (occasions : List Pool.Occasion) : Runner where
  hash := id
  version := []
  level := 0
  finder := { extensions := [utf8 "php"], excluded := [] }
  job cancelled files :=
    Pool.coordinate { jobSize := 1, retries := 0 } {} none cancelled files occasions

/-- A tree with two files. -/
def twoFiles : Tree where
  root := .dir [(utf8 "a.php", .file (utf8 "<?php")), (utf8 "b.php", .file (utf8 "<?php"))]

/-- A worker finds something in the first file, reports a failure and is lost with the second file.
-/
def halfDone : List Pool.Occasion :=
  [{ happening := .hello (.worker 0) [] },
    { happening := .result 0 { errors := [.finding (utf8 "a.php") 1 (utf8 "no")], files := 1 } },
    { happening := .result 0 (.ofFailure (utf8 "out of memory")) },
    { happening := .lost 0 (utf8 "gone") }]

/-- Both files of the tree are found. -/
lemma find_twoFiles (occasions : List Pool.Occasion) :
    (hurried occasions).finder.find twoFiles [utf8 "."] = .ok [utf8 "a.php", utf8 "b.php"] := by
  cbv

/-- What a run over the two files shows of its failures. -/
lemma run_halfDone :
    ((hurried halfDone).run twoFiles (.table { ttl := 0 }) 0 false [utf8 "."]).toOption.map
      (fun run => (run.summary.report.internal, run.summary.report.otherErrors.length)) =
      some (2, 2) := by
  cbv

/-- A run has a failure of a worker and one for a file that was given up. It counts both, and so
does the run after it, with what the first run put into the cache. -/
theorem failures_counted_halfDone :
    Pool.Reports Result.CountsFailures halfDone ∧ Pool.fitful.FindsOnly ∧
      (analyseBatch Pool.fitful false [utf8 "a", utf8 "b"]).result.CountsFailures ∧
      ∃ first second,
        (hurried halfDone).run twoFiles (.table { ttl := 0 }) 0 false [utf8 "."] = .ok first ∧
        (hurried halfDone).run twoFiles first.store 0 false [utf8 "."] = .ok second ∧
        first.summary.report.internal = 2 ∧ first.summary.report.otherErrors.length = 2 ∧
        second.summary.report.CountsFailures := by
  have hreports : Pool.Reports Result.CountsFailures halfDone := by
    simp only [Pool.Reports, halfDone, List.forall_mem_cons]
    refine ⟨?_, ?_, ?_, ?_, List.forall_mem_nil _⟩ <;> intro id r h <;> cases h <;> rfl
  have hfinds : Pool.fitful.FindsOnly := by
    intro cancelled file
    by_cases h : file = utf8 "a" <;> simp [Pool.fitful, Outcome.FindsOnly, h]
  obtain ⟨-, hbatch, -, -, -, hruns⟩ := failures_counted
  obtain ⟨first, hfirst⟩ := exists_run (find_twoFiles halfDone) (.table { ttl := 0 }) 0
  obtain ⟨second, hsecond⟩ := exists_run (find_twoFiles halfDone) first.store 0
  have hshown := run_halfDone
  rw [hfirst] at hshown
  obtain ⟨hinternal, hlength⟩ := Prod.mk.inj (Option.some.inj hshown)
  refine ⟨hreports, hfinds, hbatch _ hfinds _ _, first, second, hfirst, hsecond, hinternal,
    hlength, ?_⟩
  exact hruns _ _ _ _ _ _ _ (.run (.empty 0) hfirst) (fun _ _ => .coordinated hreports) hsecond

end Runner

end LintPool
