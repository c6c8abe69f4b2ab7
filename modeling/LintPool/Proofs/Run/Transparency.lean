import LintPool.Proofs.Run.InProcess

/-!
# Runs with a cache show what runs without one show

Some runs share a store, one after another, while the files change between them. If the analyzer is
deterministic and no two texts that are hashed have the same hash, each run shows the same findings,
failures and counts as it does without a store.

The reason is an invariant of the store: the text of every row is that of the outcome of some
subject, under the key of this subject. It holds of an empty store, and a run keeps it.

## Main definitions

* `LintPool.Inspection.Located` : an analyzer whose diagnostics are findings in the file at hand.
* `LintPool.Run.outline` : what a run shows.
* `LintPool.Invocation.runs` : runs that share a store.
* `LintPool.Invocation.Trusted` : the invariant of the store.

## Main results

* `LintPool.Invocation.Trusted.kept` : a run keeps the invariant.
* `LintPool.Invocation.Trusted.agrees` : a run shows what it shows without a store.
* `LintPool.Invocation.runs_cached_eq_uncached` : so do all runs that share a store.
-/

namespace LintPool

/-! ## Located inspections -/

/-- Whether the diagnostics for a file are findings in this file, and their texts are valid. -/
def Inspection.Located (inspect : Inspection) : Prop :=
  ∀ level file content diagnostics infer, inspect level file content = .done diagnostics infer →
    ∀ d ∈ diagnostics, d.isFileSpecific = true ∧ d.file = file ∧ d.IsText

/-- An outcome has diagnostics, or is a failure of the file. -/
lemma Outcome.done_or_failure (o : Outcome) (file : Bytes) :
    (∃ diagnostics infer, o = .done diagnostics infer) ∨
      ∃ d : Diagnostic,
        (o.result file).errors = [d] ∧ d.isFileSpecific = false ∧ d.file = file := by
  cases o with
  | done diagnostics infer => exact .inl ⟨diagnostics, infer, rfl⟩
  | failed cause => exact .inr ⟨.internalError file cause, rfl, rfl, rfl⟩
  | crashed reason => exact .inr ⟨.internalError file (utf8 "panic: " ++ reason), rfl, rfl, rfl⟩

/-- A result without the inference flag. -/
def Result.unflagged (r : Result) : Result := { r with infer := false }

/-- The total of results without the flag has no flag either. -/
lemma Result.total_map_unflagged (rs : List Result) :
    total (rs.map unflagged) = (total rs).unflagged := by
  induction rs with
  | nil => rfl
  | cons r rs ih =>
    rw [List.map_cons, total_cons, ih, total_cons]
    rfl

namespace Invocation

section Transparency

variable {inspect : Inspection} {hash : Bytes → Bytes} {version : Bytes} {inv : Invocation inspect}
  {files : List Bytes} {file : Bytes}

/-- Every diagnostic in the result of a file is about this file. -/
lemma file_eq_of_mem_resultOf (inv : Invocation inspect) (hlocated : inspect.Located)
    {d : Diagnostic} (hd : d ∈ (inv.resultOf file).errors) : d.file = file := by
  rcases Outcome.done_or_failure (inspect inv.level file (inv.tree.read file)) file with
    ⟨ds, infer, hdone⟩ | ⟨d', herrors, -, hfile⟩
  · rw [resultOf, hdone] at hd
    exact (hlocated _ _ _ _ _ hdone d hd).2.1
  · rw [resultOf, herrors] at hd
    rw [List.mem_singleton.mp hd]
    exact hfile

/-- A file that has been analysed has no failures. -/
lemma otherErrors_resultOf (hlocated : inspect.Located) {ds : List Diagnostic} {infer : Bool}
    (hdone : inspect inv.level file (inv.tree.read file) = .done ds infer) :
    (inv.resultOf file).otherErrors = [] := by
  rw [resultOf, hdone]
  refine List.filter_eq_nil_iff.mpr fun d hd => ?_
  simp [(hlocated _ _ _ _ _ hdone d hd).1]

/-- The findings of a file that has been analysed are all its diagnostics. -/
lemma findingsIn_resultOf (hlocated : inspect.Located) {ds : List Diagnostic} {infer : Bool}
    (hdone : inspect inv.level file (inv.tree.read file) = .done ds infer) :
    (inv.resultOf file).findingsIn file = ds := by
  rw [resultOf, hdone]
  refine List.filter_eq_self.mpr fun d hd => ?_
  obtain ⟨hspecific, hfile, -⟩ := hlocated _ _ _ _ _ hdone d hd
  rw [hspecific, hfile, beq_self_eq_true]
  rfl

/-- **What is kept for a file is its outcome.** A file that did not fail according to the report of
different files, one of which it is, has been analysed, and its diagnostics are what the report has
for it. -/
lemma entryFor_eq (hlocated : inspect.Located) (hnodup : files.Nodup) (hfile : file ∈ files)
    (hfailed : Runner.failed (.total (files.map inv.resultOf)) file = false) :
    ∃ ds infer, inspect inv.level file (inv.tree.read file) = .done ds infer ∧
      Runner.entryFor (.total (files.map inv.resultOf)) file = { diagnostics := ds } := by
  rcases Outcome.done_or_failure (inspect inv.level file (inv.tree.read file)) file with
    ⟨ds, infer, hdone⟩ | ⟨d, herrors, hspecific, hd⟩
  · have hfindings := Result.findingsIn_total hnodup
      (fun f _ d hd _ => inv.file_eq_of_mem_resultOf hlocated hd) file
    rw [if_pos hfile, findingsIn_resultOf hlocated hdone] at hfindings
    exact ⟨ds, infer, hdone, congrArg (fun ds => ({ diagnostics := ds } : Cache.Entry)) hfindings⟩
  · have hmem : d ∈ (Result.total (files.map inv.resultOf)).errors := by
      rw [Result.errors_total, List.flatMap_map, List.mem_flatMap]
      exact ⟨file, hfile, by rw [resultOf, herrors]; exact List.mem_singleton_self d⟩
    have hany : Runner.failed (.total (files.map inv.resultOf)) file = true :=
      List.any_eq_true.mpr ⟨d, hmem, by simp [hspecific, hd]⟩
    exact absurd (hany.symm.trans hfailed) (by decide)

/-! ## The invariant -/

/-- Whether every row of an open table holds the outcome of one of some subjects, under its key. -/
structure Trusted (inspect : Inspection) (hash : Bytes → Bytes) (known : Set Cache.Subject)
    (t : Cache.Table) : Prop where
  opened : t.closed = false
  rows : ∀ row ∈ t.rows, ∃ s ∈ known, row.key = s.key hash ∧
    ∃ ds infer, inspect s.level s.file (.ok s.content) = .done ds infer ∧
      Cache.Entry.decode row.data = .ok { diagnostics := ds }

/-- An empty table is trusted. -/
lemma trusted_empty (known : Set Cache.Subject) (ttl : Duration) :
    Trusted inspect hash known { ttl } :=
  ⟨rfl, nofun⟩

variable {known : Set Cache.Subject} {t : Cache.Table}

/-- **A trusted table serves outcomes.** -/
theorem Trusted.of_cached? (ht : Trusted inspect hash known t)
    (hinj : Set.InjOn (Cache.Subject.key hash) known)
    (hsubject : ∀ s, inv.subject? version file = some s → s ∈ known) {e : Cache.Entry}
    (h : inv.cached? hash version (.table t) file = some e) :
    ∃ ds infer, inspect inv.level file (inv.tree.read file) = .done ds infer ∧
      e = { diagnostics := ds } := by
  obtain ⟨s, hs, hserved⟩ := Option.bind_eq_some_iff.mp h
  obtain ⟨row, hrow, hkey, -, hdecode⟩ := Runner.of_served hserved
  obtain ⟨s', hs', hkey', ds, infer, hdone, hdecode'⟩ := ht.rows row hrow
  obtain rfl : s = s' := hinj (hsubject s hs) hs' (hkey.symm.trans hkey')
  obtain ⟨content, hread, rfl⟩ := of_subject? hs
  refine ⟨ds, infer, ?_, Except.ok.inj (hdecode.symm.trans hdecode')⟩
  rw [hread]
  exact hdone

/-- **A run keeps a table trusted.**

**Proof sketch.** A new row holds the outcome of a file that the store did not know about and that
did not fail. The report of such files, which are all different, has the diagnostics of the file as
its findings in it, and their texts are valid, so that they are read back as they were. -/
theorem Trusted.kept (ht : Trusted inspect hash known t) (hlocated : inspect.Located)
    (hnodup : files.Nodup)
    (hsubjects : ∀ file ∈ files, ∀ s, inv.subject? version file = some s → s ∈ known) :
    Trusted inspect hash known (inv.kept hash version t files) := by
  refine ⟨(Runner.settings_keep _ _ _ ht.opened).1, fun row hrow => ?_⟩
  rcases inv.mem_rows_kept ht.opened hrow with hrow | ⟨file, hfile, s, hs, hmissing, hgood, rfl⟩
  · exact ht.rows row hrow
  · obtain ⟨content, hread, rfl⟩ := of_subject? hs
    obtain ⟨ds, infer, hdone, hentry⟩ := entryFor_eq hlocated (hnodup.filter _) hmissing hgood
    have htexts : ∀ d ∈ ds, d.IsText := fun d hd => (hlocated _ _ _ _ _ hdone d hd).2.2
    refine ⟨_, hsubjects file hfile _ hs, rfl, ds, infer, hread ▸ hdone, ?_⟩
    rw [Runner.newRow, freshReport, missing, hentry, Cache.Entry.decode_encode,
      Diagnostic.map_mended htexts]

/-! ## One run -/

/-- What a trusted table serves is what analysing the files would come to, but for the inference
flag. -/
lemma Trusted.servedReport_eq (ht : Trusted inspect hash known t)
    (hinj : Set.InjOn (Cache.Subject.key hash) known)
    (hsubjects : ∀ file ∈ files, ∀ s, inv.subject? version file = some s → s ∈ known) :
    inv.servedReport hash version (.table t) files =
      (Result.total ((files.filter fun f =>
        !(inv.cached? hash version (.table t) f).isNone).map inv.resultOf)).unflagged := by
  rw [servedReport, ← Result.total_map_unflagged]
  congr 1
  induction files with
  | nil => rfl
  | cons file files ih =>
    obtain ⟨hfile, hsubjects⟩ := List.forall_mem_cons.mp hsubjects
    cases hentry : inv.cached? hash version (.table t) file with
    | none =>
      rw [List.filterMap_cons_none hentry, List.filter_cons_of_neg (by simp [hentry])]
      exact ih hsubjects
    | some e =>
      obtain ⟨ds, infer, hdone, rfl⟩ := ht.of_cached? hinj hfile hentry
      rw [List.filterMap_cons_some hentry, List.filter_cons_of_pos (by simp [hentry]),
        List.map_cons, List.map_cons, List.map_cons, ih hsubjects, resultOf, hdone]
      rfl

/-- **A run shows what it shows without a store.** -/
theorem Trusted.agrees (ht : Trusted inspect hash known t) (hlocated : inspect.Located)
    (hinj : Set.InjOn (Cache.Subject.key hash) known) (hnodup : files.Nodup)
    (hsubjects : ∀ file ∈ files, ∀ s, inv.subject? version file = some s → s ∈ known) :
    Result.Agrees
      ((inv.freshReport hash version (.table t) files).merge
        (inv.servedReport hash version (.table t) files))
      (.total (files.map inv.resultOf)) := by
  have hquiet : ∀ f ∈ files, (inv.cached? hash version (.table t) f).isNone = false →
      (inv.resultOf f).otherErrors = [] := by
    intro f hf hsome
    obtain ⟨e, he⟩ := Option.isSome_iff_exists.mp (Option.isNone_eq_false_iff.mp hsome)
    obtain ⟨ds, infer, hdone, -⟩ := ht.of_cached? hinj (hsubjects f hf) he
    exact otherErrors_resultOf hlocated hdone
  rw [ht.servedReport_eq hinj hsubjects]
  -- the flag is no part of what is compared
  obtain ⟨hfindings, hothers, hfiles, hinternal⟩ := Result.agrees_split hnodup
    (fun f _ d hd _ => inv.file_eq_of_mem_resultOf hlocated hd) hquiet
  exact ⟨hfindings, hothers, hfiles, hinternal⟩

end Transparency

end Invocation

/-! ## Runs that share a store -/

/-- What a run shows. -/
structure Outline where
  fileErrors : List Diagnostic
  otherErrors : List Diagnostic
  files : Int64
  internal : Int64
  /-- The exit code. -/
  code : UInt32
  deriving DecidableEq

/-- What a run shows. -/
def Run.outline (run : Run) : Outline where
  fileErrors := run.summary.report.fileErrors
  otherErrors := run.summary.report.otherErrors
  files := run.summary.report.files
  internal := run.summary.report.internal
  code := run.summary.verdict.code

/-- Runs whose reports agree, and whose jobs did not fail, show the same. -/
lemma Run.outline_eq {run run' : Run} (h : Result.Agrees run.summary.report run'.summary.report)
    (hrun : run.summary.jobError = none) (hrun' : run'.summary.jobError = none) :
    run.outline = run'.outline := by
  simp only [outline, Summary.verdict, Verdict.ofReport, hrun, hrun', Option.map_none,
    Result.hasFindings_eq, h.fileErrors, h.otherErrors, h.files, h.internal]

namespace Invocation

section History

variable {inspect : Inspection} {hash : Bytes → Bytes} {version : Bytes}
  {history : List (Invocation inspect)} {known : Set Cache.Subject} {t : Cache.Table}

/-- The store after a run. One that fails leaves it as it is. -/
def storeAfter (store : Cache.Store) : Except RunError Run → Cache.Store
  | .ok run => run.store
  | .error _ => store

/-- Runs that share a store, one after another. -/
def runs (hash : Bytes → Bytes) (version : Bytes) (store : Cache.Store) :
    List (Invocation inspect) → List (Except RunError Run)
  | [] => []
  | inv :: history =>
    inv.run hash version store ::
      runs hash version (storeAfter store (inv.run hash version store)) history

/-- **A run with a trusted table** shows what it shows without one, and leaves a trusted table. -/
theorem Trusted.run (ht : Trusted inspect hash known t) (hlocated : inspect.Located)
    (hinj : Set.InjOn (Cache.Subject.key hash) known) {inv : Invocation inspect}
    (hsubjects : inv.subjects version ⊆ known) :
    (inv.run hash version (.table t)).map Run.outline =
        (inv.run hash version .none).map Run.outline ∧
      ∃ t', storeAfter (.table t) (inv.run hash version (.table t)) = .table t' ∧
        Trusted inspect hash known t' := by
  cases hfound : inv.found with
  | error e =>
    rw [inv.run_of_not_found hash version hfound, inv.run_of_not_found hash version hfound]
    exact ⟨rfl, t, rfl, ht⟩
  | ok files =>
    obtain ⟨run, hrun, hyields⟩ := inv.run_of_found hash version hfound (.table t)
    obtain ⟨plain, hplain, hyields'⟩ := inv.run_of_found hash version hfound .none
    have hnodup : files.Nodup := Finder.nodup_find hfound
    have hsubjects' : ∀ file ∈ files, ∀ s, inv.subject? version file = some s → s ∈ known :=
      fun file hfile s hs => hsubjects ⟨files, hfound, file, hfile, hs⟩
    have hagrees := ht.agrees hlocated hinj hnodup hsubjects'
    obtain ⟨hfresh, hserved⟩ :=
      inv.report_of_cached?_eq_none hash version (inv.cached?_none hash version) files
    have hreport := hyields'.report
    rw [hserved, Result.merge_empty, hfresh] at hreport
    rw [← hyields.report, ← hreport] at hagrees
    rw [hrun, hplain]
    refine ⟨congrArg Except.ok (Run.outline_eq hagrees hyields.jobError hyields'.jobError), ?_⟩
    exact ⟨_, hyields.store t rfl, ht.kept hlocated hnodup hsubjects'⟩

/-- Runs that share a trusted table show what they show without one. The induction is on the runs,
over the table that the earlier ones left. -/
lemma Trusted.runs (ht : Trusted inspect hash known t) (hlocated : inspect.Located)
    (hinj : Set.InjOn (Cache.Subject.key hash) known)
    (hsubjects : ∀ inv ∈ history, inv.subjects version ⊆ known) :
    (runs hash version (.table t) history).map (·.map Run.outline) =
      history.map fun inv => (inv.run hash version .none).map Run.outline := by
  induction history generalizing t with
  | nil => rfl
  | cons inv history ih =>
    obtain ⟨hinv, hsubjects⟩ := List.forall_mem_cons.mp hsubjects
    obtain ⟨houtline, t', hafter, ht'⟩ := ht.run hlocated hinj hinv
    rw [Invocation.runs, List.map_cons, List.map_cons, houtline, hafter, ih ht' hsubjects]

/-- **A cache does not show.** Each of some runs that share a store shows the same findings,
failures, counts and exit code as it does without a store. -/
theorem runs_cached_eq_uncached (hlocated : inspect.Located)
    (hfree : CollisionFree hash version history) (ttl : Duration) :
    (runs hash version (.table { ttl }) history).map (·.map Run.outline) =
      history.map fun inv => (inv.run hash version .none).map Run.outline :=
  (trusted_empty _ ttl).runs hlocated hfree.injOn_key fun inv hinv _ hs => ⟨inv, hinv, hs⟩

end History

/-! ## An example -/

/-- An analyzer that finds the size of every file that can be read and has a valid path. -/
def sizeInspection : Inspection := fun _ file content =>
  match content with
  | .ok content =>
    if Utf8.isValid file then .done [.finding file (Int64.ofNat content.length) (utf8 "size")] true
    else .failed (utf8 "damaged path")
  | .error e => .failed e.message

/-- A run over a single file. -/
def sampleRun (now : Cache.Instant) (content : String) : Invocation sizeInspection where
  tree.root := .dir [(utf8 "a.php", .file (utf8 content))]
  level := 3
  now
  finder := { extensions := [utf8 "php"], excluded := [] }
  jobSize := 1
  roots := [utf8 "a.php"]

/-- What a run over a single file shows. -/
def sampleOutline (size : Int64) : Outline where
  fileErrors := [.finding (utf8 "a.php") size (utf8 "size")]
  otherErrors := []
  files := 1
  internal := 0
  code := 1

/-- Three runs over a file that share a store, of which the second finds nothing changed and the
third finds the file edited. -/
theorem runs_before_and_after_edit :
    sizeInspection.Located ∧
      CollisionFree id []
        [sampleRun 0 "<?php", sampleRun 1000000000 "<?php", sampleRun 2000000000 "<?php //"] ∧
      (runs id [] (.table { ttl := 0 })
        [sampleRun 0 "<?php", sampleRun 1000000000 "<?php", sampleRun 2000000000 "<?php //"]).map
          (·.map Run.outline) =
        [.ok (sampleOutline 5), .ok (sampleOutline 5), .ok (sampleOutline 8)] := by
  have hlocated : sizeInspection.Located := by
    intro level file content diagnostics infer hdone d hd
    unfold sizeInspection at hdone
    split at hdone
    · split at hdone
      · rename_i hvalid
        obtain ⟨rfl, -⟩ := Outcome.done.inj hdone
        rw [List.mem_singleton.mp hd]
        have hsize : Utf8.isValid (utf8 "size") = true := by decide +kernel
        exact ⟨rfl, rfl, hsize, hvalid⟩
      · cases hdone
    · cases hdone
  have hfree : ∀ history : List (Invocation sizeInspection), CollisionFree id [] history :=
    fun _ => Function.injective_id.injOn
  refine ⟨hlocated, hfree _, (runs_cached_eq_uncached hlocated (hfree _) 0).trans ?_⟩
  cbv

end Invocation

end LintPool
