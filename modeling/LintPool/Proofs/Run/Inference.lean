import LintPool.Proofs.Run.Transparency
import Mathlib

/-!
# The inference flag on a repeated run

A run reports whether property types could be inferred in any of its files. What is kept of a file
does not say so. Hence a run that is repeated with the store that the first one filled reports it
only for files that are analysed again: those that cannot be read, those that count as failed, and
all of them once the entries are too old.

## Main definitions

* `LintPool.Invocation.flags` : property types can be inferred in a file.
* `LintPool.Cache.outlived` : an entry is too old at some time.

## Main results

* `LintPool.Invocation.cached?_repeated` : which files the second run takes from the store.
* `LintPool.Invocation.infer_repeated` : what the two runs report.
* `LintPool.Invocation.infer_repeated_eq_iff` : when the two runs report the same.
-/

namespace LintPool

/-- Whether an entry that was stored at some time is too old at another one. -/
def Cache.outlived (ttl : Duration) (stored now : Cache.Instant) : Bool :=
  0 < ttl && ttl.toInt < now.since stored.toSeconds

namespace Invocation

section Inference

variable {inspect : Inspection} {hash : Bytes → Bytes} {version : Bytes} {inv : Invocation inspect}
  {files : List Bytes} {file : Bytes}

/-- Whether property types can be inferred in a file. -/
def flags (inv : Invocation inspect) (file : Bytes) : Bool := (inv.resultOf file).infer

/-- The same run at another time. -/
def repeated (inv : Invocation inspect) (later : Cache.Instant) : Invocation inspect :=
  { inv with now := later }

/-- An empty table knows no file. -/
lemma cached?_empty (inv : Invocation inspect) (ttl : Duration) (file : Bytes) :
    inv.cached? hash version (.table { ttl }) file = none :=
  Option.bind_fun_none _

/-- What the rows of a table are that a first run over some files filled. -/
lemma mem_rows_filled {ttl : Duration} {row : Cache.Row}
    (hrow : row ∈ (inv.kept hash version { ttl } files).rows) :
    ∃ file ∈ files, ∃ s, inv.subject? version file = some s ∧
      Runner.failed (.total (files.map inv.resultOf)) file = false ∧
      row = Runner.newRow inv.now (.total (files.map inv.resultOf)) file (s.key hash) := by
  obtain ⟨hfresh, -⟩ :=
    inv.report_of_cached?_eq_none hash version (inv.cached?_empty ttl) files
  rcases inv.mem_rows_kept rfl hrow with h | ⟨file, hfile, s, hs, -, hgood, hrow⟩
  · cases h
  · rw [hfresh] at hgood hrow
    exact ⟨file, hfile, s, hs, hgood, hrow⟩

/-- Whether a file is too old in the table that a first run filled. -/
lemma expired_filled {ttl : Duration} {later : Cache.Instant} {row : Cache.Row}
    (hrow : row ∈ (inv.kept hash version { ttl } files).rows) :
    (inv.kept hash version { ttl } files).expired later row = Cache.outlived ttl inv.now later := by
  have httl : (inv.kept hash version { ttl } files).ttl = ttl := (Runner.settings_keep _ _ _ rfl).2
  obtain ⟨file, -, s, -, -, rfl⟩ := mem_rows_filled hrow
  rw [Cache.Table.expired, httl]
  rfl

/-- What a first run kept does not have the inference flag. -/
lemma infer_filled {ttl : Duration} {row : Cache.Row}
    (hrow : row ∈ (inv.kept hash version { ttl } files).rows) :
    ∃ e, Cache.Entry.decode row.data = .ok e ∧ e.infer = false := by
  obtain ⟨file, -, s, -, -, rfl⟩ := mem_rows_filled hrow
  exact ⟨_, Cache.Entry.decode_encode _, rfl⟩

/-- What the first run kept is found under its key. -/
lemma exists_row_filled (hash : Bytes → Bytes) (ttl : Duration) (hfile : file ∈ files)
    {s : Cache.Subject} (hs : inv.subject? version file = some s)
    (hgood : Runner.failed (.total (files.map inv.resultOf)) file = false) :
    ∃ row, (inv.kept hash version { ttl } files).find? (s.key hash) = some row := by
  obtain ⟨hfresh, -⟩ :=
    inv.report_of_cached?_eq_none hash version (inv.cached?_empty ttl) files
  have hkeeps : Runner.Keeps (inv.freshReport hash version (.table { ttl }) files)
      (inv.lookup hash version (.table { ttl }) file) (s.key hash) :=
    { key_eq := congrArg (Option.map _) hs
      entry_eq := inv.cached?_empty ttl file
      failed_eq := hfresh.symm ▸ hgood }
  exact Option.isSome_iff_exists.mp
    (Runner.find?_isSome_keep rfl (.inl ⟨_, List.mem_map_of_mem hfile, hkeeps⟩))

/-- **Which files the second run takes from the store:** those that can be read and did not count as
failed in the first report, unless the entries are too old. -/
theorem cached?_repeated (hfound : inv.found = .ok files) (hfree : CollisionFree hash version [inv])
    (ttl : Duration) (later : Cache.Instant) (hfile : file ∈ files) :
    ((inv.repeated later).cached? hash version
        (.table (inv.kept hash version { ttl } files)) file).isSome = true ↔
      (inv.subject? version file).isSome = true ∧
        Runner.failed (.total (files.map inv.resultOf)) file = false ∧
        Cache.outlived ttl inv.now later = false := by
  constructor
  · intro hsome
    obtain ⟨e, he⟩ := Option.isSome_iff_exists.mp hsome
    obtain ⟨s, hs, hserved⟩ := Option.bind_eq_some_iff.mp he
    replace hs : inv.subject? version file = some s := hs
    obtain ⟨row, hrow, hkey, hfresh, -⟩ := Runner.of_served hserved
    rw [expired_filled hrow] at hfresh
    obtain ⟨file', hfile', s', hs', hgood, rfl⟩ := mem_rows_filled hrow
    -- the row is that of the file itself, as keys keep files apart
    obtain rfl : s' = s := hfree.injOn_key
      ⟨inv, List.mem_singleton_self inv, files, hfound, file', hfile', hs'⟩
      ⟨inv, List.mem_singleton_self inv, files, hfound, file, hfile, hs⟩ hkey
    obtain ⟨content', -, rfl⟩ := of_subject? hs'
    obtain ⟨content, -, hsubject⟩ := of_subject? hs
    obtain rfl : file' = file := congrArg Cache.Subject.file hsubject
    exact ⟨Option.isSome_iff_exists.mpr ⟨_, hs'⟩, hgood, hfresh⟩
  · rintro ⟨hsome, hgood, hyoung⟩
    obtain ⟨s, hs⟩ := Option.isSome_iff_exists.mp hsome
    obtain ⟨row, hfind⟩ := exists_row_filled hash ttl hfile hs hgood
    have hrow := (Cache.Table.of_find? hfind).1
    obtain ⟨e, hdecode, -⟩ := infer_filled hrow
    have hget := Cache.Table.get_of_find? (Runner.settings_keep _ _ _ rfl).1 hfind
      ((expired_filled hrow).trans hyoung) hdecode
    refine Option.isSome_iff_exists.mpr ⟨e, Option.bind_eq_some_iff.mpr ⟨s, hs, ?_⟩⟩
    rw [Runner.served]
    exact congrArg (fun found => found.toOption.join) hget

/-- What a store serves has no inference flag if no row of it has. -/
lemma infer_servedReport (inv : Invocation inspect) {t : Cache.Table}
    (hrows : ∀ row ∈ t.rows, ∃ e, Cache.Entry.decode row.data = .ok e ∧ e.infer = false)
    (files : List Bytes) : (inv.servedReport hash version (.table t) files).infer = false := by
  rw [servedReport, Result.infer_total, List.any_map, List.any_eq_false]
  intro e he
  obtain ⟨file, -, hentry⟩ := List.mem_filterMap.mp he
  obtain ⟨s, -, hserved⟩ := Option.bind_eq_some_iff.mp hentry
  obtain ⟨row, hrow, -, -, hdecode⟩ := Runner.of_served hserved
  obtain ⟨e', hdecode', hinfer⟩ := hrows row hrow
  obtain rfl : e = e' := Except.ok.inj (hdecode.symm.trans hdecode')
  simp [Cache.Entry.result, hinfer]

/-- **What the two runs report.** The first one reports the flag of any file, the second one that of
a file which is analysed again. -/
theorem infer_repeated (hfound : inv.found = .ok files) (hfree : CollisionFree hash version [inv])
    (ttl : Duration) (later : Cache.Instant) :
    ∃ first second, inv.run hash version (.table { ttl }) = .ok first ∧
      (inv.repeated later).run hash version first.store = .ok second ∧
      first.summary.jobError = none ∧
      first.summary.report = .total (files.map inv.resultOf) ∧
      (second.summary.report.infer = true ↔
        ∃ file ∈ files, inv.flags file = true ∧
          ((inv.tree.read file).toOption = none ∨
            Runner.failed first.summary.report file = true ∨
            Cache.outlived ttl inv.now later = true)) := by
  obtain ⟨first, hfirst, hyields⟩ := inv.run_of_found hash version hfound (.table { ttl })
  obtain ⟨hfresh, hserved⟩ :=
    inv.report_of_cached?_eq_none hash version (inv.cached?_empty ttl) files
  have hreport : first.summary.report = .total (files.map inv.resultOf) := by
    rw [hyields.report, hfresh, hserved, Result.merge_empty]
  obtain ⟨second, hsecond, hyields'⟩ := (inv.repeated later).run_of_found hash version hfound
    (.table (inv.kept hash version { ttl } files))
  refine ⟨first, second, hfirst, hyields.store _ rfl ▸ hsecond, hyields.jobError, hreport, ?_⟩
  have hflags : ∀ file, ((inv.repeated later).resultOf file).infer = inv.flags file := fun _ => rfl
  rw [hyields'.report, Result.merge, infer_servedReport _ (fun row => infer_filled), Bool.or_false,
    freshReport, Result.infer_total, List.any_map, List.any_eq_true]
  simp only [missing, List.mem_filter, Function.comp_apply, hflags, and_assoc]
  refine exists_congr fun file => and_congr_right fun hfile => ?_
  rw [and_comm]
  refine and_congr_right fun _ => ?_
  -- a file is analysed again if the store does not serve it
  rw [← Bool.not_eq_false, Option.isNone_eq_false_iff,
    cached?_repeated hfound hfree ttl later hfile, subject?, Option.isSome_map, hreport]
  simp only [not_and_or, Option.isSome_iff_ne_none, not_not, Bool.not_eq_false]

/-- **When the inference flag survives.** A run that is repeated with the store that it filled
reports the same flag as before if and only if no file sets it, or a file that sets it is analysed
again: it cannot be read, it counts as failed, or its entry is too old. -/
theorem infer_repeated_eq_iff (hfound : inv.found = .ok files)
    (hfree : CollisionFree hash version [inv]) (ttl : Duration) (later : Cache.Instant) :
    ∃ first second, inv.run hash version (.table { ttl }) = .ok first ∧
      first.summary.jobError = none ∧
      (inv.repeated later).run hash version first.store = .ok second ∧
      (second.summary.report.infer = first.summary.report.infer ↔
        ((∃ file ∈ files, inv.flags file = true) →
          ∃ file ∈ files, inv.flags file = true ∧
            ((inv.tree.read file).toOption = none ∨
              Runner.failed first.summary.report file = true ∨
              Cache.outlived ttl inv.now later = true))) := by
  obtain ⟨first, second, hfirst, hsecond, herror, hreport, hiff⟩ :=
    infer_repeated hfound hfree ttl later
  refine ⟨first, second, hfirst, herror, hsecond, ?_⟩
  have hany : first.summary.report.infer = true ↔ ∃ file ∈ files, inv.flags file = true := by
    rw [hreport, Result.infer_total, List.any_map, List.any_eq_true]
    rfl
  rw [← hiff, ← hany]
  constructor
  · intro heq hset
    exact heq.trans hset
  · intro himp
    rw [Bool.eq_iff_iff]
    refine ⟨fun hset => hany.mpr ?_, himp⟩
    obtain ⟨file, hfile, hflag, -⟩ := hiff.mp hset
    exact ⟨file, hfile, hflag⟩

end Inference

/-! ## An example -/

/-- The run over a single file finds it. -/
lemma found_sampleRun : (sampleRun 0 "<?php").found = .ok [utf8 "a.php"] := by
  cbv

/-- Nothing collides without hashing. -/
lemma collisionFree_id {inspect : Inspection} (history : List (Invocation inspect)) :
    CollisionFree id [] history :=
  Function.injective_id.injOn

/-- A second run after the entry has expired reports the flag as the first one did. -/
theorem infer_survives_expiry :
    (sampleRun 0 "<?php").found = .ok [utf8 "a.php"] ∧
      CollisionFree id [] [sampleRun 0 "<?php"] ∧
      ∃ first second,
        (sampleRun 0 "<?php").run id [] (.table { ttl := 1000000000 }) = .ok first ∧
        (sampleRun 9000000000 "<?php").run id [] first.store = .ok second ∧
        second.summary.report.infer = first.summary.report.infer := by
  refine ⟨found_sampleRun, collisionFree_id _, ?_⟩
  obtain ⟨first, second, hfirst, -, hsecond, hiff⟩ :=
    infer_repeated_eq_iff found_sampleRun (collisionFree_id _) 1000000000 9000000000
  refine ⟨first, second, hfirst, hsecond, hiff.mpr fun ⟨file, hfile, hflag⟩ => ?_⟩
  exact ⟨file, hfile, hflag, .inr (.inr (by decide))⟩

/-- A second run reports no flag if it takes the only file from the store. -/
theorem infer_lost_on_second_run :
    ∃ first second,
      (sampleRun 0 "<?php").run id [] (.table { ttl := 0 }) = .ok first ∧
      (sampleRun 1000000000 "<?php").run id [] first.store = .ok second ∧
      first.summary.jobError = none ∧
      first.summary.report.infer = true ∧ second.summary.report.infer = false := by
  obtain ⟨first, second, hfirst, hsecond, herror, hreport, hiff⟩ :=
    infer_repeated found_sampleRun (collisionFree_id _) 0 1000000000
  refine ⟨first, second, hfirst, hsecond, herror, ?_, ?_⟩
  · rw [hreport]
    cbv
  · rw [← Bool.not_eq_true, hiff, hreport]
    rintro ⟨file, hfile, -, hagain⟩
    obtain rfl := List.mem_singleton.mp hfile
    have hread :
        ((sampleRun 0 "<?php").tree.read (utf8 "a.php")).toOption = some (utf8 "<?php") := by
      cbv
    have hgood : Runner.failed (.total ([utf8 "a.php"].map (sampleRun 0 "<?php").resultOf))
        (utf8 "a.php") = false := by
      cbv
    have hyoung : Cache.outlived 0 (sampleRun 0 "<?php").now 1000000000 = false := by decide
    rw [hread, hgood, hyoung] at hagain
    simp at hagain

end Invocation

end LintPool
