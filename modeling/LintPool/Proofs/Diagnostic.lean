import LintPool.Diagnostic
import LintPool.Proofs.Json.Record

/-!
# Diagnostics are read back as they were printed

## Main definitions

* `LintPool.Diagnostic.IsText` : whether the texts of a diagnostic are valid.
* `LintPool.Diagnostic.mended` : a diagnostic with valid texts.

## Main results

* `LintPool.Diagnostic.fits_toJson` : the JSON form of a diagnostic is well-formed and flat.
* `LintPool.Diagnostic.ofJson_toJson` : a diagnostic is read back from its JSON form.
* `LintPool.Diagnostic.readList_map` : so is a list of diagnostics.
-/

namespace LintPool

namespace Diagnostic

section Diagnostics

variable {d : Diagnostic}

/-- Whether the texts of a diagnostic are valid. -/
def IsText (d : Diagnostic) : Prop := Utf8.isValid d.message = true ∧ Utf8.isValid d.file = true

/-- A diagnostic whose texts are mended. -/
def mended (d : Diagnostic) : Diagnostic :=
  { d with message := Utf8.mend d.message, file := Utf8.mend d.file }

/-- The fields of a diagnostic are kept apart by their names. -/
lemma separate_fields : Json.Separate fields := ⟨by decide, by decide⟩

/-- The JSON form of a diagnostic is flat. -/
lemma fits_toJson (d : Diagnostic) : Json.Fits 1 d.toJson := by
  have hflag : Json.MembersFit 0 [Json.member "isFileSpecific" (.bool d.isFileSpecific)] :=
    .cons (by decide) (Json.fits_bool 0 _) .nil
  unfold toJson
  split
  · exact Json.fits_text 1 d.message
  · refine Json.MembersFit.object ?_
    cases d.line with
    | none =>
      exact .cons (by decide) (Json.fits_text 0 _) (.cons (by decide) (Json.fits_text 0 _) hflag)
    | some n =>
      exact .cons (by decide) (Json.fits_text 0 _) (.cons (by decide) (Json.fits_text 0 _)
        (.cons (by decide) (Json.fits_int 0 _) hflag))

section Members

variable (parts : Parts)

/-- The message of a diagnostic is read. -/
lemma readMember_message (s : Bytes) :
    Json.readMember .strict fields parts (Json.member "message" (.text s)) =
      .ok { parts with message := some (Json.unescape (Json.escape s)) } :=
  separate_fields.readMember (.head _) .strict parts _

/-- The file of a diagnostic is read. -/
lemma readMember_file (s : Bytes) :
    Json.readMember .strict fields parts (Json.member "file" (.text s)) =
      .ok { parts with file := Json.unescape (Json.escape s) } :=
  separate_fields.readMember (.tail _ (.head _)) .strict parts _

/-- The line of a diagnostic is read. -/
lemma readMember_line (n : Int64) :
    Json.readMember .strict fields parts (Json.member "line" (.int n.toInt)) =
      .ok { parts with line := some n } := by
  refine separate_fields.readMember_of_set (.tail _ (.tail _ (.head _))) .strict ?_
  simp only [Json.Field.simple, Json.Field.integer?_int]

/-- The kind of a diagnostic is read. -/
lemma readMember_isFileSpecific (b : Bool) :
    Json.readMember .strict fields parts (Json.member "isFileSpecific" (.bool b)) =
      .ok { parts with isFileSpecific := b } :=
  separate_fields.readMember (.tail _ (.tail _ (.tail _ (.head _)))) .strict parts _

end Members

/-- A diagnostic is made of the parts that are read off its members. -/
lemma ofJson_object {ms : List (Bytes × Json)} {p : Parts} {message : Bytes}
    (hp : ms.foldlM (Json.readMember .strict fields) {} = .ok p)
    (hmessage : p.message = some message) :
    ofJson (.object ms) =
      .ok { message, file := p.file, line := p.line, isFileSpecific := p.isFileSpecific } := by
  rw [ofJson, Json.readRecord, hp]
  · simp only [hmessage]
  · nofun

/-- **A diagnostic is read back from its JSON form**, a bare message and an object alike, with its
texts mended. -/
theorem ofJson_toJson (d : Diagnostic) : ofJson d.toJson = .ok d.mended := by
  obtain ⟨message, file, line, isFileSpecific⟩ := d
  unfold toJson
  split
  · rename_i hbare
    simp only [isBare, Bool.and_eq_true, List.isEmpty_iff, Option.isNone_iff_eq_none,
      Bool.not_eq_true'] at hbare
    obtain ⟨⟨rfl, rfl⟩, rfl⟩ := hbare
    rw [Json.text, ofJson, Json.unescape_escape, mended, Utf8.mend_nil]
    rfl
  · cases line with
    | none =>
      refine ofJson_object
        (p := ⟨some (Utf8.mend message), Utf8.mend file, none, isFileSpecific⟩) ?_ rfl
      refine (Json.foldlM_cons_of_ok (readMember_message _ message)).trans ?_
      refine (Json.foldlM_cons_of_ok (readMember_file _ file)).trans ?_
      refine (Json.foldlM_cons_of_ok (readMember_isFileSpecific _ isFileSpecific)).trans ?_
      rw [Json.unescape_escape, Json.unescape_escape]
      rfl
    | some n =>
      refine ofJson_object
        (p := ⟨some (Utf8.mend message), Utf8.mend file, some n, isFileSpecific⟩) ?_ rfl
      refine (Json.foldlM_cons_of_ok (readMember_message _ message)).trans ?_
      refine (Json.foldlM_cons_of_ok (readMember_file _ file)).trans ?_
      refine (Json.foldlM_cons_of_ok (readMember_line _ n)).trans ?_
      refine (Json.foldlM_cons_of_ok (readMember_isFileSpecific _ isFileSpecific)).trans ?_
      rw [Json.unescape_escape, Json.unescape_escape]
      rfl

/-- **A list of diagnostics is read back**, with its texts mended. -/
theorem readList_map (ds : List Diagnostic) :
    readList [] (ds.map toJson) = .ok { items := ds.map mended } :=
  Json.readItems_map mended (fun d _ => ofJson_toJson d) []

/-- Valid diagnostics need no mending. -/
lemma map_mended {ds : List Diagnostic} (hds : ∀ d ∈ ds, d.IsText) : ds.map mended = ds := by
  refine (List.map_congr_left fun d hd => ?_).trans (List.map_id ds)
  rw [mended, Utf8.mend_of_isValid (hds d hd).1, Utf8.mend_of_isValid (hds d hd).2]
  rfl

end Diagnostics

end Diagnostic

end LintPool
