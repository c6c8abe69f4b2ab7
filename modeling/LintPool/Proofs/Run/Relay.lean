import LintPool.Proofs.Analysis
import LintPool.Proofs.Run.InProcess
import LintPool.Proofs.Stream.Carriage

/-!
# What is kept of files that failed

A run sends the files that its cache does not know about to a worker, in one frame, and gets what
the worker made of them back in another. Then it keeps the outcome of every file that did not fail.
It knows a file that failed by its path in a diagnostic of the answer.

A path need not be valid text, but a message carries valid text only: damaged bytes are mended on
the way. The worker so looks at another path, which as a rule leads nowhere, and its answer never
names the path that the run holds. Hence a file that failed is passed over if its path is valid; if
not, the file is taken for one without findings and kept as such.

## Main definitions

* `LintPool.relay?` : what comes of files that are sent to a worker.
* `LintPool.Relay.FailedOn` : whether the worker failed on a file.
* `LintPool.Runner.CollisionFree` : the hash function keeps apart the texts of all files.

## Main results

* `LintPool.of_relay?`, `LintPool.relay?_eq` : what arrives at the worker and in the report.
* `LintPool.Relay.failed_eq` : a run knows that a file failed exactly if its path is valid.
* `LintPool.Runner.row_of_failed_file` : what is kept of a file that failed.
* `LintPool.Runner.failed_file_served` : a file that failed is served as one without findings.
-/

namespace LintPool

/-! ## Sending a batch -/

/-- What comes of files that are sent to a worker. -/
structure Relay where
  /-- The paths that the worker gets. -/
  arrived : List Bytes
  /-- The report that its answer is merged into. -/
  report : Report

/-- Sends files to a worker in one frame and merges the answer that comes back in another; nothing
if one of the two does not arrive. -/
def relay? (analyzer : Analyzer) (files : List Bytes) (there back : List Nat) : Option Relay := do
  let arrived ← Stream.carryFiles? files there
  let r ← Stream.carryResult? (analyseBatch analyzer false arrived).result back
  return { arrived, report := ({} : Report).merge r }

section Relaying

variable {analyzer : Analyzer} {files : List Bytes} {there back : List Nat} {relay : Relay}

/-- **What arrives is mended**: the paths at the worker, and the diagnostics in the report. -/
theorem of_relay? (h : relay? analyzer files there back = some relay) :
    relay.arrived = files.map Utf8.mend ∧
      relay.report.errors =
        (analyseBatch analyzer false relay.arrived).result.errors.map .mended := by
  obtain ⟨arrived, harrived, h⟩ := Option.bind_eq_some_iff.mp h
  obtain ⟨r, hr, h⟩ := Option.bind_eq_some_iff.mp h
  obtain rfl := Option.some.inj h
  obtain rfl := Stream.of_carryResult? hr
  exact ⟨Stream.of_carryFiles? harrived, rfl⟩

/-- Files whose frame is sent arrive, and so does the answer if its frame is sent. -/
theorem relay?_eq (hne : ∀ f ∈ files, f ≠ [])
    (hsent : (Stream.encode (.analyse files)).toOption.isSome = true) {result : Result}
    (hresult : (analyseBatch analyzer false (files.map Utf8.mend)).result = result)
    (hcounts : 0 ≤ result.files ∧ 0 ≤ result.internal)
    (hanswered : (Stream.encode (.result result)).toOption.isSome = true) :
    relay? analyzer files there back =
      some { arrived := files.map Utf8.mend, report := ({} : Report).merge result.mended } := by
  rw [relay?, Stream.carryFiles?_eq hne hsent, Option.bind_eq_bind, Option.bind_some, hresult,
    Stream.carryResult?_eq hcounts hanswered]
  rfl

end Relaying

/-! ## Files that failed -/

/-- Whether an analysis failed or broke down. -/
def Outcome.isFailure : Outcome → Bool
  | .done _ _ => false
  | .failed _ => true
  | .crashed _ => true

/-- The diagnostic of a file that failed. -/
lemma Outcome.exists_internalError {outcome : Outcome} (h : outcome.isFailure = true)
    (file : Bytes) :
    ∃ cause, Diagnostic.internalError file cause ∈ (outcome.result file).errors := by
  cases outcome with
  | done => cases h
  | failed cause => exact ⟨cause, List.mem_singleton_self _⟩
  | crashed reason => exact ⟨_, List.mem_singleton_self _⟩

namespace Relay

/-- Whether the worker failed on a file, or broke down. -/
def FailedOn (relay : Relay) (analyzer : Analyzer) (files : List Bytes) (file : Bytes) : Prop :=
  ∃ outcome, (file, outcome) ∈ files.zip (analyzer.outcomes false relay.arrived) ∧
    outcome.isFailure = true

section Failing

variable {analyzer : Analyzer} {files : List Bytes} {there back : List Nat} {relay : Relay}
  {file : Bytes}

/-- There is a diagnostic of a file that failed in the report, with its path mended. -/
lemma FailedOn.exists_error (h : relay? analyzer files there back = some relay)
    (hfailed : relay.FailedOn analyzer files file) :
    ∃ d ∈ relay.report.errors, d.isFileSpecific = false ∧ d.file = Utf8.mend file := by
  obtain ⟨harrived, herrors⟩ := of_relay? h
  obtain ⟨outcome, houtcome, hfailure⟩ := hfailed
  obtain ⟨cause, hcause⟩ := outcome.exists_internalError hfailure (Utf8.mend file)
  have hvisit : (Utf8.mend file, outcome) ∈
      relay.arrived.zip (analyzer.outcomes false relay.arrived) := by
    rw [harrived] at houtcome ⊢
    rw [List.zip_map_left]
    exact List.mem_map_of_mem houtcome
  refine ⟨(Diagnostic.internalError (Utf8.mend file) cause).mended, ?_, rfl, ?_⟩
  · rw [herrors, Analyzer.errors_analyseBatch]
    exact List.mem_map_of_mem (List.mem_flatMap.mpr ⟨_, hvisit, hcause⟩)
  · exact Utf8.mend_of_isValid (Utf8.isValid_mend file)

/-- The report names valid paths only. -/
lemma isValid_file (h : relay? analyzer files there back = some relay) :
    ∀ d ∈ relay.report.errors, Utf8.isValid d.file = true := by
  rw [(of_relay? h).2]
  exact List.forall_mem_map.mpr fun d _ => Utf8.isValid_mend d.file

/-- **A run knows that a file failed exactly if its path is valid.** -/
theorem failed_eq (h : relay? analyzer files there back = some relay)
    (hfailed : relay.FailedOn analyzer files file) :
    Runner.failed relay.report file = Utf8.isValid file := by
  cases hvalid : Utf8.isValid file with
  | true =>
    obtain ⟨d, hd, hspecific, hfile⟩ := hfailed.exists_error h
    rw [Utf8.mend_of_isValid hvalid] at hfile
    exact List.any_eq_true.mpr ⟨d, hd, by simp [hspecific, hfile]⟩
  | false =>
    refine List.any_eq_false.mpr fun d hd => ?_
    have hne : d.file ≠ file := by
      rintro rfl
      cases (isValid_file h d hd).symm.trans hvalid
    simp [hne]

/-- There are no findings in a file whose path is not valid. -/
lemma entryFor_eq (h : relay? analyzer files there back = some relay)
    (hvalid : Utf8.isValid file = false) : Runner.entryFor relay.report file = {} := by
  have hnone : relay.report.errors.filter (fun d => d.isFileSpecific && d.file == file) = [] := by
    refine List.filter_eq_nil_iff.mpr fun d hd => ?_
    have hne : d.file ≠ file := by
      rintro rfl
      cases (isValid_file h d hd).symm.trans hvalid
    simp [hne]
  rw [Runner.entryFor, hnone]

end Failing

end Relay

/-! ## What is kept -/

namespace Runner

/-- Whether the hash function keeps apart the texts of all files that can be read. -/
def CollisionFree (r : Runner) (tree : Tree) (files : List Bytes) : Prop :=
  Set.InjOn r.hash (Set.image Cache.Subject.text
    { s | s.version = r.version ∧ s.level = r.level ∧ s.file ∈ files ∧
      tree.read s.file = .ok s.content })

section Keeping

variable {r : Runner} {tree : Tree} {t t' : Cache.Table} {now : Cache.Instant}
  {files : List Bytes} {file file' content content' : Bytes} {l : Lookup} {lookups : List Lookup}

/-- Keys keep apart the files that can be read. -/
lemma CollisionFree.file_eq (hfree : r.CollisionFree tree files) (hfile : file ∈ files)
    (hfile' : file' ∈ files) (hread : tree.read file = .ok content)
    (hread' : tree.read file' = .ok content')
    (hkey : r.keyOf file content = r.keyOf file' content') : file = file' := by
  have htext := hfree (Set.mem_image_of_mem _ ⟨rfl, rfl, hfile, hread⟩)
    (Set.mem_image_of_mem _ ⟨rfl, rfl, hfile', hread'⟩) hkey
  have hsubject : (⟨r.version, r.level, file, content⟩ : Cache.Subject) =
      ⟨r.version, r.level, file', content'⟩ :=
    Cache.Subject.text_inj rfl (Invocation.zero_notMem_of_read hread)
      (Invocation.zero_notMem_of_read hread') htext
  exact congrArg Cache.Subject.file hsubject

/-- What is looked up about a file has its path, and its key if it can be read. -/
lemma of_lookUp {store : Cache.Store} (h : r.lookUp tree store now false file = .ok l) :
    l.file = file ∧ l.key = (tree.read file).toOption.map (r.keyOf file) := by
  rw [lookUp] at h
  cases hread : tree.read file with
  | error e =>
    rw [hread] at h
    obtain rfl := Except.ok.inj h
    exact ⟨rfl, rfl⟩
  | ok content =>
    rw [hread] at h
    simp only at h
    split at h
    · cases h
    · obtain rfl := Except.ok.inj h
      exact ⟨rfl, rfl⟩

/-- What is looked up about some files is what is looked up about each. -/
lemma of_mem_lookups {store : Cache.Store}
    (h : files.mapM (r.lookUp tree store now false) = .ok lookups) (hl : l ∈ lookups) :
    l.file ∈ files ∧ l.key = (tree.read l.file).toOption.map (r.keyOf l.file) := by
  obtain ⟨file, hfile, hlookUp⟩ := exists_of_mem_mapM h hl
  obtain ⟨rfl, hkey⟩ := of_lookUp hlookUp
  exact ⟨hfile, hkey⟩

/-- What is kept under the key of a file is the outcome of that file. -/
lemma Keeps.file_eq {store : Cache.Store} {report : Report}
    (hkeeps : Keeps report l (r.keyOf file content))
    (hlookups : files.mapM (r.lookUp tree store now false) = .ok lookups) (hl : l ∈ lookups)
    (hfree : r.CollisionFree tree files) (hfile : file ∈ files)
    (hread : tree.read file = .ok content) : l.file = file := by
  obtain ⟨hfile', hkey⟩ := of_mem_lookups hlookups hl
  rw [hkeeps.key_eq] at hkey
  cases hread' : tree.read l.file with
  | error e =>
    rw [hread'] at hkey
    cases hkey
  | ok content' =>
    rw [hread'] at hkey
    exact hfree.file_eq hfile' hfile hread' hread (Option.some.inj hkey).symm

/-- **What is kept of a file that failed.** Nothing is kept if its path is valid. Otherwise the
cache has an outcome without findings for the file afterwards. -/
theorem row_of_failed_file {analyzer : Analyzer} {there back : List Nat} {relay : Relay}
    (hopen : t.closed = false)
    (hlookups : files.mapM (r.lookUp tree (.table t) now false) = .ok lookups)
    (hfree : r.CollisionFree tree files)
    (hrelay : relay? analyzer (pending lookups) there back = some relay)
    (hkeep : keep (.table t) now lookups { report := relay.report } = .table t')
    (hread : tree.read file = .ok content)
    (hfailed : relay.FailedOn analyzer (pending lookups) file) :
    t'.find? (r.keyOf file content) =
      if Utf8.isValid file then t.find? (r.keyOf file content)
      else some { key := r.keyOf file content, data := Cache.Entry.encode {},
                  created := now.toSeconds } := by
  have hknown := Relay.failed_eq hrelay hfailed
  obtain ⟨outcome, houtcome, -⟩ := hfailed
  obtain ⟨l, hl, rfl⟩ := List.mem_map.mp (List.of_mem_zip houtcome).1
  obtain ⟨hl, hentry⟩ := List.mem_filter.mp hl
  obtain ⟨hfile, hkey⟩ := of_mem_lookups hlookups hl
  have hsame : ∀ l' ∈ lookups, Keeps relay.report l' (r.keyOf l.file content) →
      l'.file = l.file := fun l' hl' hkeeps => hkeeps.file_eq hlookups hl' hfree hfile hread
  cases hkeep
  split
  · rename_i hvalid
    refine find?_keep_of_not hopen fun l' hl' hkeeps => ?_
    have hfailed := hkeeps.failed_eq
    rw [hsame l' hl' hkeeps, hknown, hvalid] at hfailed
    cases hfailed
  · rename_i hvalid
    have hdamaged := Bool.eq_false_iff.mpr hvalid
    have hkeeps : Keeps relay.report l (r.keyOf l.file content) :=
      ⟨by rw [hkey, hread]; rfl, Option.isNone_iff_eq_none.mp hentry, hknown.trans hdamaged⟩
    refine (find?_keep hopen ⟨l, hl, hkeeps⟩ hsame).trans ?_
    rw [newRow, Relay.entryFor_eq hrelay hdamaged]

end Keeping

/-! ## A damaged path -/

/-- The damaged path and a valid one. -/
def sampleFiles : List Bytes := [utf8 "a.php", damagedPath]

/-- A tree with a file at each of them. -/
def sampleTree : Tree where
  root := .dir [(utf8 "a.php", .file (utf8 "<?php")), (damagedPath, .file (utf8 "<?php"))]

/-- A runner whose keys are the texts themselves. -/
def sampleRunner : Runner where
  hash := id
  version := []
  level := 0
  finder := { extensions := [utf8 "php"], excluded := [] }
  job _ _ := {}

/-- An analyzer that fails on every file. -/
def hopeless : Analyzer := fun _ _ => { outcome := .failed (utf8 "boom") }

/-- What is known about a file of this tree with an empty cache. -/
def sampleLookup (file : Bytes) : Lookup where
  file
  size := 5
  key := some (sampleRunner.keyOf file (utf8 "<?php"))

/-- What comes of the files when they are sent to this analyzer. -/
def sampleRelay : Relay where
  arrived := sampleFiles.map Utf8.mend
  report := ({} : Report).merge
    (analyseBatch hopeless false (sampleFiles.map Utf8.mend)).result.mended

/-- Both files are looked up. -/
lemma lookUp_sample :
    sampleFiles.mapM (sampleRunner.lookUp sampleTree (.table { ttl := 0 }) 0 false) =
      .ok [sampleLookup (utf8 "a.php"), sampleLookup damagedPath] := by
  cbv

set_option maxRecDepth 4000 in
/-- Both files are sent, and there is an answer. -/
lemma relay?_sample : relay? hopeless sampleFiles [] [] = some sampleRelay :=
  relay?_eq (by decide) (by cbv) rfl (by decide) (by cbv)

/-- The analyzer fails on both files. -/
lemma failedOn_sample :
    ∀ file ∈ sampleFiles, sampleRelay.FailedOn hopeless sampleFiles file := by
  intro file hfile
  refine ⟨.failed (utf8 "boom"), ?_, rfl⟩
  have hzip : sampleFiles.zip (hopeless.outcomes false sampleRelay.arrived) =
      sampleFiles.map fun file => (file, .failed (utf8 "boom")) := rfl
  rw [hzip]
  exact List.mem_map_of_mem hfile

/-- The table after a run over both files. -/
def sampleTable : Cache.Table :=
  [sampleLookup (utf8 "a.php"), sampleLookup damagedPath].foldl
    (keepOne 0 sampleRelay.report) { ttl := 0 }

/-- Keys keep both files apart. -/
lemma collisionFree_sample : sampleRunner.CollisionFree sampleTree sampleFiles :=
  Function.injective_id.injOn

/-- The file with a damaged path can be read. -/
lemma read_damagedPath : sampleTree.read damagedPath = .ok (utf8 "<?php") := by cbv

/-- Of two files that failed, the one with a damaged path is kept. -/
theorem rows_of_failed_files :
    relay? hopeless sampleFiles [] [] = some sampleRelay ∧
      sampleTable.find? (sampleRunner.keyOf (utf8 "a.php") (utf8 "<?php")) = none ∧
      sampleTable.find? (sampleRunner.keyOf damagedPath (utf8 "<?php")) =
        some { key := sampleRunner.keyOf damagedPath (utf8 "<?php"),
               data := Cache.Entry.encode {}, created := 0 } := by
  have hread : sampleTree.read (utf8 "a.php") = .ok (utf8 "<?php") := by cbv
  have hvalid : Utf8.isValid (utf8 "a.php") = true := by decide +kernel
  have hplain := row_of_failed_file rfl lookUp_sample collisionFree_sample relay?_sample rfl hread
    (failedOn_sample _ (.head _))
  have hkept := row_of_failed_file rfl lookUp_sample collisionFree_sample relay?_sample rfl
    read_damagedPath (failedOn_sample _ (.tail _ (.head _)))
  rw [hvalid] at hplain
  rw [isValid_damagedPath] at hkept
  exact ⟨relay?_sample, hplain, hkept⟩

/-- **A file that failed is served as one without findings** in the runs that follow. -/
theorem failed_file_served :
    ∃ lookups relay t,
      sampleFiles.mapM (sampleRunner.lookUp sampleTree (.table { ttl := 0 }) 0 false) =
          .ok lookups ∧
        relay? hopeless (pending lookups) [] [] = some relay ∧
        relay.FailedOn hopeless (pending lookups) damagedPath ∧
        keep (.table { ttl := 0 }) 0 lookups { report := relay.report } = .table t ∧
        served (.table t) 1 (sampleRunner.keyOf damagedPath (utf8 "<?php")) = some {} := by
  have hmem : damagedPath ∈ sampleFiles := .tail _ (.head _)
  have hfailed := failedOn_sample damagedPath hmem
  have hkeeps : Keeps sampleRelay.report (sampleLookup damagedPath)
      (sampleRunner.keyOf damagedPath (utf8 "<?php")) :=
    ⟨rfl, rfl, (Relay.failed_eq relay?_sample hfailed).trans isValid_damagedPath⟩
  have hrow : sampleTable.find? (sampleRunner.keyOf damagedPath (utf8 "<?php")) = some _ :=
    find?_keep rfl ⟨_, .tail _ (.head _), hkeeps⟩ fun l hl hkeeps =>
      hkeeps.file_eq lookUp_sample hl collisionFree_sample hmem read_damagedPath
  rw [newRow, Relay.entryFor_eq relay?_sample isValid_damagedPath] at hrow
  obtain ⟨hopen, httl⟩ : sampleTable.closed = false ∧ sampleTable.ttl = 0 := settings_keep 0 _ _ rfl
  have hfresh (row : Cache.Row) : sampleTable.expired 1 row = false := by
    rw [Cache.Table.expired, httl]
    rfl
  have hget : sampleTable.get 1 _ = .ok _ :=
    Cache.Table.get_of_find? hopen hrow (hfresh _) (Cache.Entry.decode_encode {})
  refine ⟨_, _, sampleTable, lookUp_sample, relay?_sample, hfailed, rfl, ?_⟩
  rw [served, hget]
  rfl

end Runner

end LintPool
