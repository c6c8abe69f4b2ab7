import LintPool.Cache.Store
import LintPool.Proofs.Cache.Key
import LintPool.Proofs.Diagnostic
import Mathlib.Data.List.Basic

/-!
# What a cache gives back

The text of an entry determines the entry up to damaged characters. A table serves the row of a key
as long as it is not too old.

## Main results

* `LintPool.Cache.Entry.decode_encode` : an entry is read back from its text.
* `LintPool.Cache.Table.find?_insert` : the row of a key after another one has been inserted.
* `LintPool.Cache.Table.of_get_eq_some`, `LintPool.Cache.Table.get_of_find?` : a table serves the
  row of a key unless it is too old.
-/

namespace LintPool.Cache

/-! ## Entries -/

namespace Entry

/-- The fields of an entry are kept apart by their names. -/
lemma separate_fields : Json.Separate fields := ⟨by decide, by decide⟩

/-- The JSON form of an entry is well-formed. -/
lemma fits_toJson (e : Entry) : Json.Fits Json.maxDepth e.toJson := by
  have hitems : ∀ v ∈ e.diagnostics.map Diagnostic.toJson, Json.Fits 1 v :=
    List.forall_mem_map.mpr fun d _ => d.fits_toJson
  have hmembers : Json.MembersFit 2 [Json.member "diagnostics"
      (.array (e.diagnostics.map Diagnostic.toJson)),
      Json.member "hasInferrablePropertyTypesFromConstructor" (.bool e.infer)] :=
    .cons (by decide) (Json.fits_array hitems) (.cons (by decide) (Json.fits_bool 2 _) .nil)
  exact hmembers.object.mono (by decide)

/-- **An entry is read back from its text**, with its diagnostics mended. -/
theorem decode_encode (e : Entry) :
    decode e.encode = .ok { e with diagnostics := e.diagnostics.map .mended } := by
  have hlist := Diagnostic.readList_map e.diagnostics
  have hfirst : Json.readMember .lenient fields {}
      (Json.member "diagnostics" (.array (e.diagnostics.map Diagnostic.toJson))) =
        .ok { diagnostics := { items := e.diagnostics.map .mended } } := by
    refine separate_fields.readMember_of_set (.head _) .lenient ?_
    simp only [diagnosticsField, Json.Slots.all, List.append_nil, hlist]
  have hrecord : Json.readRecord .lenient fields {} e.toJson =
      .ok { diagnostics := { items := e.diagnostics.map .mended }, infer := e.infer } := by
    refine (Json.foldlM_cons_of_ok hfirst).trans ?_
    exact Json.foldlM_cons_of_ok (separate_fields.readMember (.tail _ (.head _)) .lenient _ _)
  rw [decode, encode, e.fits_toJson.parse?_print]
  simp only [hrecord]

end Entry

/-! ## Tables -/

namespace Table

variable {t : Table} {now : Instant} {key : Bytes} {row : Row}

/-- The rows of a table after one was stored: the new one, and old ones with other keys. -/
lemma mem_insert {data : Bytes} (h : row ∈ (t.insert now key data).rows) :
    row ∈ t.rows ∨ row = { key, data, created := now.toSeconds } := by
  rcases List.mem_append.mp h with h | h
  · exact .inl (List.mem_of_mem_filter h)
  · exact .inr (List.mem_singleton.mp h)

/-- What is found is a row of the key. -/
lemma of_find? (h : t.find? key = some row) : row ∈ t.rows ∧ row.key = key := by
  have hkey := List.find?_some (p := fun row : Row => row.key == key) h
  exact ⟨List.mem_of_find?_eq_some h, beq_iff_eq.mp hkey⟩

/-- What is found after a row was stored: this row under its key, and the old ones under others. -/
lemma find?_insert (t : Table) (now : Instant) (key data k : Bytes) :
    (t.insert now key data).find? k =
      if k = key then some { key, data, created := now.toSeconds } else t.find? k := by
  rw [find?, insert, List.find?_append, List.find?_singleton]
  by_cases heq : k = key
  · subst heq
    have hnone : (t.rows.filter (·.key != k)).find? (·.key == k) = none := by
      refine List.find?_eq_none.mpr fun row hrow => ?_
      simpa using (List.mem_filter.mp hrow).2
    rw [hnone, Option.none_or, if_pos rfl, if_pos (beq_self_eq_true k)]
  · have hsame : (t.rows.filter (·.key != key)).find? (·.key == k) = t.find? k := by
      rw [List.find?_filter, find?]
      congr 1
      funext row
      by_cases hk : row.key = k
      · simp [hk, heq]
      · simp [hk]
    rw [hsame, if_neg heq, if_neg (by simpa using Ne.symm heq), Option.or_none]

/-- A key that was stored is found. -/
lemma find?_isSome_insert (t : Table) (now : Instant) (key data k : Bytes)
    (h : k = key ∨ (t.find? k).isSome = true) :
    ((t.insert now key data).find? k).isSome = true := by
  rw [find?_insert]
  split
  · rfl
  · rename_i hne
    exact h.resolve_left hne

/-- **What a table serves** is a row of the key that is not too old. -/
lemma of_get_eq_some {e : Entry} (h : t.get now key = .ok (some e)) :
    ∃ row ∈ t.rows, row.key = key ∧ t.expired now row = false ∧ Entry.decode row.data = .ok e := by
  unfold get at h
  split at h
  · cases h
  · split at h
    · cases h
    · rename_i row hfind
      split at h
      · cases h
      · rename_i hfresh
        split at h
        · rename_i e' hdecode
          obtain rfl := Option.some.inj (Except.ok.inj h)
          obtain ⟨hrow, hkey⟩ := of_find? hfind
          exact ⟨row, hrow, hkey, Bool.eq_false_iff.mpr hfresh, hdecode⟩
        · cases h

/-- A row that is found, not too old and readable is served. -/
lemma get_of_find? {e : Entry} (hopen : t.closed = false) (hfind : t.find? key = some row)
    (hfresh : t.expired now row = false) (hdecode : Entry.decode row.data = .ok e) :
    t.get now key = .ok (some e) := by
  simp only [get, hopen, hfind, hfresh, hdecode, Bool.false_eq_true, if_false]

end Table

end LintPool.Cache
