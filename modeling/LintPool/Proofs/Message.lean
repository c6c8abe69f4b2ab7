import LintPool.Message
import LintPool.Proofs.Diagnostic

/-!
# Messages are read back as they were printed

A message that follows the schema of its action and can be written is read back from its text. The
payload of an unknown action may nest too deeply to be written, because the message around it counts
as well; what is written leaves room for the message.

## Main definitions

* `LintPool.Json.IsCompact` : compact texts, with all characters escaped that are ever escaped.
* `LintPool.Message.Conforms` : whether a message follows the schema of its action.

## Main results

* `LintPool.Message.parse_print` : a message is read back from its text.
* `LintPool.Message.parse_analyse`, `LintPool.Message.parse_result` : what is read back if its texts
  are damaged.
* `LintPool.Message.text_of_print` : the text of a message is in braces and has no control
  character.
-/

namespace LintPool

/-! ## Trimming -/

namespace Blank

/-- A byte that starts no white space is not dropped. -/
lemma dropOne?_eq_none {blanks : List Bytes} {a : UInt8}
    (ha : ∀ blank ∈ blanks, blank.head? ≠ none ∧ blank.head? ≠ some a) (s : Bytes) :
    dropOne? blanks (a :: s) = none := by
  refine List.findSome?_eq_none_iff.mpr fun blank hblank => ?_
  obtain ⟨hnone, hsome⟩ := ha blank hblank
  cases blank with
  | nil => exact absurd rfl hnone
  | cons b blank => rw [Bytes.dropPrefix?, if_neg fun hb => hsome (congrArg some hb)]

/-- A text that starts with a brace is not trimmed at its start. -/
lemma trimStart_brace (s : Bytes) : trimStart (byte '{' :: s) = byte '{' :: s := by
  rw [trimStart]
  split
  · rename_i heq
    cases heq.symm.trans (dropOne?_eq_none (by decide) s)
  · rfl

/-- A text in braces is not trimmed. -/
lemma trim_braces (s : Bytes) :
    trim (byte '{' :: (s ++ [byte '}'])) = byte '{' :: (s ++ [byte '}']) := by
  have hback : (byte '{' :: (s ++ [byte '}'])).reverse = byte '}' :: (byte '{' :: s).reverse := by
    simp
  rw [trim, trimStart_brace, trimEnd, hback, trimBackwards]
  split
  · rename_i heq
    cases heq.symm.trans (dropOne?_eq_none (by decide) _)
  · rw [← hback, List.reverse_reverse]

end Blank

/-! ## Compact texts -/

namespace Json

section Compact

variable {n : Nat} {v : Json} {s : Bytes}

/-- Whether a text is the compact text of its value, with all characters escaped that are ever
escaped. -/
def IsCompact (s : Bytes) : Prop := ∃ v, parse? s = some v ∧ v.shield.print = s

/-- Shielding does not change how deeply a value nests. -/
lemma WellFormed.depth_shield (hv : WellFormed v) : v.shield.depth = v.depth := by
  induction hv with
  | null | bool | number => rw [Json.shield.eq_def]
  | string =>
    rw [Json.shield, depth.eq_def, depth.eq_def]
  | array _ ih =>
    rw [Json.shield, depth, depth, List.map_map, Function.comp_def,
      List.map_congr_left (g := depth) ih]
  | object _ _ ih =>
    rw [Json.shield, depth, depth, List.map_map, Function.comp_def,
      List.map_congr_left (g := fun m => m.2.depth) ih]

/-- There is nothing to shield in a shielded value. -/
lemma WellFormed.shield_shield (hv : WellFormed v) : v.shield.shield = v.shield := by
  induction hv with
  | null | bool | number => rw [Json.shield.eq_def, Json.shield.eq_def]
  | string => rw [Json.shield, Json.shield, shieldBody_shieldBody]
  | array _ ih =>
    rw [Json.shield, Json.shield, List.map_map, Function.comp_def, List.map_congr_left ih]
  | object _ _ ih =>
    rw [Json.shield, Json.shield, List.map_map, Function.comp_def]
    refine congrArg Json.object (List.map_congr_left fun m hm => ?_)
    rw [shieldBody_shieldBody, ih m hm]

/-- A value that fits does so when it is shielded. -/
lemma Fits.shield (hv : Fits n v) : Fits n v.shield where
  wellFormed := hv.wellFormed.shield
  depth_le := hv.wellFormed.depth_shield ▸ hv.depth_le

end Compact

end Json

/-- A result whose diagnostics are mended. -/
def Result.mended (r : Result) : Result := { r with errors := r.errors.map .mended }

namespace Message

/-! ## The schema -/

/-- The names of the actions that have a schema. -/
def knownActions : List Bytes := [utf8 "hello", utf8 "analyse", utf8 "result"]

/-- Whether a message follows the schema of its action, and its texts are valid. -/
def Conforms : Message → Prop
  | .hello identifier => identifier ≠ [] ∧ Utf8.isValid identifier = true
  | .analyse files => ∀ f ∈ files, f ≠ [] ∧ Utf8.isValid f = true
  | .result r => 0 ≤ r.files ∧ 0 ≤ r.internal ∧ ∀ d ∈ r.errors, d.IsText
  | .unknown name payload =>
    (name ≠ [] ∧ Utf8.isValid name = true ∧ name ∉ knownActions) ∧ Json.IsCompact payload

section RoundTrip

variable {σ : Type} {m : Message} {action text : Bytes} {payload : Json}

/-- The action of a message that follows its schema can be read back. -/
lemma Conforms.isValid_action (hm : m.Conforms) : m.action ≠ [] ∧ Utf8.isValid m.action = true := by
  have hknown : ∀ a ∈ knownActions, a ≠ [] ∧ Json.IsName a := by decide
  have hvalid : ∀ a ∈ knownActions, a ≠ [] ∧ Utf8.isValid a = true :=
    fun a ha => ⟨(hknown a ha).1, Utf8.isValid_of_lt fun b hb => ((hknown a ha).2 b hb).2⟩
  cases m with
  | hello => exact hvalid _ (.head _)
  | analyse => exact hvalid _ (.tail _ (.head _))
  | result => exact hvalid _ (.tail _ (.tail _ (.head _)))
  | unknown => exact ⟨hm.1.1, hm.1.2.1⟩

/-- The payload of a hello fits. -/
lemma fits_identifier (identifier : Bytes) :
    Json.Fits 1 (.object [Json.member "identifier" (.text identifier)]) := by
  have hmembers : Json.MembersFit 0 [Json.member "identifier" (.text identifier)] :=
    .cons (by decide) (Json.fits_text 0 _) .nil
  exact hmembers.object

/-- The payload of a batch of files fits. -/
lemma fits_files (files : List Bytes) :
    Json.Fits 2 (.object [Json.member "files" (.array (files.map Json.text))]) := by
  have hfiles : Json.Fits 1 (.array (files.map Json.text)) :=
    Json.fits_array (List.forall_mem_map.mpr fun f _ => Json.fits_text 0 f)
  have hmembers : Json.MembersFit 1 [Json.member "files" (.array (files.map Json.text))] :=
    .cons (by decide) hfiles .nil
  exact hmembers.object

/-- The payload of a result fits. -/
lemma fits_resultJson (r : Result) : Json.Fits 3 (resultJson r) := by
  have herrors : Json.Fits 2 (.array (r.errors.map Diagnostic.toJson)) :=
    Json.fits_array (List.forall_mem_map.mpr fun d _ => d.fits_toJson)
  refine Json.MembersFit.object ?_
  exact .cons (by decide) herrors <| .cons (by decide) (Json.fits_int 2 _) <|
    .cons (by decide) (Json.fits_int 2 _) <| .cons (by decide) (Json.fits_bool 2 _) .nil

/-- The payload of a message is well-formed. -/
lemma wellFormed_payload (hpayload : m.payloadJson? = some payload) : Json.WellFormed payload := by
  cases m with
  | hello identifier =>
    obtain rfl := Option.some.inj hpayload
    exact (fits_identifier identifier).wellFormed
  | analyse files =>
    obtain rfl := Option.some.inj hpayload
    exact (fits_files files).wellFormed
  | result r =>
    obtain rfl := Option.some.inj hpayload
    exact (fits_resultJson r).wellFormed
  | unknown name source =>
    rw [payloadJson?] at hpayload
    split at hpayload
    · obtain rfl := Option.some.inj hpayload
      exact (Json.MembersFit.nil (n := 0)).object.wellFormed
    · obtain ⟨v, hv, rfl⟩ := Option.map_eq_some_iff.mp hpayload
      exact (Json.wellFormed_of_parse? hv).shield

/-- **The text of a message is its envelope**, and the payload leaves room for it. -/
lemma of_print (htext : m.print = .ok text) :
    ∃ payload, m.payloadJson? = some payload ∧ Json.Fits (Json.maxDepth - 1) payload ∧
      text = (envelope m.action payload).print := by
  unfold print at htext
  split at htext
  · cases htext
  · rename_i payload hpayload
    split at htext
    · rename_i hdepth
      exact ⟨payload, hpayload, ⟨wellFormed_payload hpayload, Nat.le_sub_one_of_lt hdepth⟩,
        (Except.ok.inj htext).symm⟩
    · cases htext

/-- A message can be written if its payload leaves room for it. -/
lemma print_of_fits (hpayload : m.payloadJson? = some payload)
    (hfits : Json.Fits (Json.maxDepth - 1) payload) :
    m.print = .ok (envelope m.action payload).print := by
  have hdepth : payload.depth < Json.maxDepth := Nat.lt_of_le_of_lt hfits.depth_le (by decide)
  rw [print, hpayload]
  exact if_pos hdepth

/-- A batch of files can be written. -/
lemma print_analyse (files : List Bytes) : (analyse files).print = .ok (envelope (utf8 "analyse")
    (.object [Json.member "files" (.array (files.map Json.text))])).print :=
  print_of_fits rfl ((fits_files files).mono (by decide))

/-- A result can be written. -/
lemma print_result (r : Result) :
    (result r).print = .ok (envelope (utf8 "result") (resultJson r)).print :=
  print_of_fits rfl ((fits_resultJson r).mono (by decide))

/-- A record is read off the text of an object. -/
lemma readStrict_print {fields : List (Json.Field σ Diagnostic.ReadError)} {initial r : σ}
    {ms : List (Bytes × Json)} (hfits : Json.Fits Json.maxDepth (.object ms))
    (hr : ms.foldlM (Json.readMember .strict fields) initial = .ok r) :
    readStrict fields initial (Json.print (.object ms)) = .ok r := by
  have htrim : (Blank.trimStart (Json.print (.object ms))).isEmpty = false := by
    rw [Json.print_object, Blank.trimStart_brace]
    rfl
  rw [readStrict, htrim, hfits.read?_print]
  simp only [Json.readRecord, hr]
  rfl

/-- The members of a message's envelope. -/
def envelopeMembers (action : Bytes) (payload : Json) : List (Bytes × Json) :=
  [Json.member "action" (.text action), Json.member "payload" payload]

/-- An envelope adds a level to its payload. -/
lemma fits_envelope (action : Bytes) (hpayload : Json.Fits (Json.maxDepth - 1) payload) :
    Json.Fits Json.maxDepth (envelope action payload) := by
  have hmembers : Json.MembersFit (Json.maxDepth - 1) (envelopeMembers action payload) :=
    .cons (by decide) (Json.fits_text _ _) (.cons (by decide) hpayload .nil)
  exact hmembers.object.mono (by decide)

/-- The fields of an envelope are kept apart by their names. -/
lemma separate_envelopeFields : Json.Separate envelopeFields := ⟨by decide, by decide⟩

/-- The action is read off an envelope. -/
lemma readStrict_envelope (haction : Utf8.isValid action = true)
    (hpayload : Json.Fits (Json.maxDepth - 1) payload) :
    readStrict envelopeFields [] (envelope action payload).print = .ok action := by
  refine readStrict_print (fits_envelope action hpayload) ?_
  refine (Json.foldlM_cons_of_ok (separate_envelopeFields.readMember (.head _) _ _ _)).trans ?_
  refine (Json.foldlM_cons_of_ok
    (separate_envelopeFields.readMember (.tail _ (.head _)) _ _ _)).trans ?_
  have hread := Json.unescape_escape_of_isValid haction
  exact congrArg Except.ok hread

/-- The payload of an envelope is found in its text. -/
lemma payloadSource_envelope (hpayload : Json.Fits (Json.maxDepth - 1) payload) :
    payloadSource (envelope action payload).print = payload.print := by
  have hfits := fits_envelope action hpayload
  have hdepth : ∀ m ∈ envelopeMembers action payload, m.2.depth ≤ Json.maxDepth :=
    fun m hm => Nat.le_trans (Nat.le_of_lt (Json.depth_lt_object hm)) hfits.depth_le
  have hsource : Json.sourceMembers (envelope action payload).print =
      [(utf8 "action", (Json.text action).print), (utf8 "payload", payload.print)] := by
    have hall := Json.sourceMembers_print hfits.wellFormed hdepth []
    rwa [List.append_nil] at hall
  have haction : CaseFold.eqFold (utf8 "payload") (Json.unescape (utf8 "action")) = false := by
    have hname : Json.IsName (utf8 "action") := by decide
    have hpayload : Json.IsName (utf8 "payload") := by decide
    rw [hname.unescape, CaseFold.eqFold, hname.foldText, hpayload.foldText]
    decide
  have hpayload : CaseFold.eqFold (utf8 "payload") (Json.unescape (utf8 "payload")) = true := by
    have hname : Json.IsName (utf8 "payload") := by decide
    rw [hname.unescape, CaseFold.eqFold, beq_self_eq_true]
  rw [payloadSource, hsource]
  simp only [List.filter_cons, haction, hpayload]
  rfl

/-- A message is read as its action asks from the payload of its envelope. -/
lemma parse_envelope (haction : action ≠ [] ∧ Utf8.isValid action = true)
    (hpayload : Json.Fits (Json.maxDepth - 1) payload) :
    parse (envelope action payload).print =
      (parsePayload action payload.print).mapError (.payload action) := by
  have hne : action.isEmpty = false := by
    rw [Bool.eq_false_iff, ne_eq, List.isEmpty_iff]
    exact haction.1
  rw [parse, readStrict_envelope haction.2 hpayload]
  simp only [hne, payloadSource_envelope hpayload]
  cases parsePayload action payload.print <;> rfl

/-- A hello is read back from its payload. -/
lemma parseHello_print {identifier : Bytes} (hm : (hello identifier).Conforms)
    (hfits : Json.Fits Json.maxDepth (.object [Json.member "identifier" (.text identifier)])) :
    parseHello (Json.print (.object [Json.member "identifier" (.text identifier)])) =
      .ok (.hello identifier) := by
  have hseparate : Json.Separate helloFields := ⟨by decide, by decide⟩
  have hread := Json.unescape_escape_of_isValid hm.2
  have hrecord : readStrict helloFields none
      (Json.print (.object [Json.member "identifier" (.text identifier)])) =
        .ok (some identifier) := by
    refine readStrict_print hfits ?_
    refine (Json.foldlM_cons_of_ok (hseparate.readMember (.head _) _ _ _)).trans ?_
    exact congrArg (fun s => Except.ok (some s)) hread
  have hne : identifier.isEmpty = false := by
    rw [Bool.eq_false_iff, ne_eq, List.isEmpty_iff]
    exact hm.1
  rw [parseHello, hrecord]
  simp only [hne]
  rfl

/-- The paths of a batch of files are read back from its payload, mended. -/
lemma readStrict_analyse (files : List Bytes)
    (hfits : Json.Fits Json.maxDepth
      (.object [Json.member "files" (.array (files.map Json.text))])) :
    readStrict analyseFields none
        (Json.print (.object [Json.member "files" (.array (files.map Json.text))])) =
      .ok (some { items := files.map Utf8.mend }) := by
  have hseparate : Json.Separate analyseFields := ⟨by decide, by decide⟩
  have hitems : Json.readItems readPath [] [] [] (files.map Json.text) =
      .ok { items := files.map Utf8.mend } :=
    Json.readItems_map Utf8.mend (fun f _ => congrArg Except.ok (Json.unescape_escape f)) []
  refine readStrict_print hfits ?_
  refine Json.foldlM_cons_of_ok (hseparate.readMember_of_set (.head _) .strict ?_)
  simp only [Json.Field.simple, readFiles, id, Option.map_none, Option.getD_none, hitems]

/-- A batch of files is read back from its payload with its paths mended, if none is empty. -/
lemma parseAnalyse_print {files : List Bytes} (hne : ∀ f ∈ files, f ≠ [])
    (hfits : Json.Fits Json.maxDepth
      (.object [Json.member "files" (.array (files.map Json.text))])) :
    parseAnalyse (Json.print (.object [Json.member "files" (.array (files.map Json.text))])) =
      .ok (.analyse (files.map Utf8.mend)) := by
  have hpaths : (files.map Utf8.mend).findIdx? List.isEmpty = none := by
    rw [List.findIdx?_eq_none_iff]
    refine List.forall_mem_map.mpr fun f hf => ?_
    rw [Bool.eq_false_iff, ne_eq, List.isEmpty_iff]
    exact Utf8.mend_ne_nil (hne f hf)
  rw [parseAnalyse, readStrict_analyse files hfits]
  simp only [hpaths]

/-- A result is read back from its payload with its diagnostics mended, unless a count is
negative. -/
lemma parseResult_print (r : Result) (hfits : Json.Fits Json.maxDepth (resultJson r)) :
    parseResult (resultJson r).print =
      if 0 ≤ r.files then
        if 0 ≤ r.internal then .ok (.result r.mended) else .error .internalErrorsCount
      else .error .filesCount := by
  have hseparate : Json.Separate resultFields := ⟨by decide, by decide⟩
  have hfirst : Json.readMember .strict resultFields {}
      (Json.member "errors" (.array (r.errors.map Diagnostic.toJson))) =
        .ok { errors := some { items := r.errors.map .mended } } := by
    refine hseparate.readMember_of_set (.head _) .strict ?_
    simp only [errorsField, Option.map_none, Option.getD_none, Diagnostic.readList_map r.errors]
  have hsecond (parts : ResultParts) : Json.readMember .strict resultFields parts
      (Json.member "filesCount" (.int r.files.toInt)) =
        .ok { parts with files := some r.files } := by
    refine hseparate.readMember_of_set (.tail _ (.head _)) .strict ?_
    simp only [Json.Field.simple, Json.Field.integer?_int]
  have hthird (parts : ResultParts) : Json.readMember .strict resultFields parts
      (Json.member "internalErrorsCount" (.int r.internal.toInt)) =
        .ok { parts with internal := some r.internal } := by
    refine hseparate.readMember_of_set (.tail _ (.tail _ (.head _))) .strict ?_
    simp only [Json.Field.simple, Json.Field.integer?_int]
  have hrecord : readStrict resultFields {} (resultJson r).print =
      .ok { errors := some { items := r.errors.map .mended }, files := some r.files,
            internal := some r.internal, infer := r.infer } := by
    refine readStrict_print hfits ?_
    refine (Json.foldlM_cons_of_ok hfirst).trans ?_
    refine (Json.foldlM_cons_of_ok (hsecond _)).trans ?_
    refine (Json.foldlM_cons_of_ok (hthird _)).trans ?_
    exact Json.foldlM_cons_of_ok
      (hseparate.readMember (.tail _ (.tail _ (.tail _ (.head _)))) .strict _ _)
  rw [parseResult, hrecord]
  simp only [count?, Option.filter_some, decide_eq_true_eq]
  by_cases hfiles : 0 ≤ r.files
  · by_cases hinternal : 0 ≤ r.internal
    · simp only [hfiles, hinternal, if_true, Result.mended]
    · simp only [hfiles, hinternal, if_true, if_false]
  · simp only [hfiles, if_false]

/-- The payload of an unknown action is its value, shielded. -/
lemma payloadJson?_unknown {name source : Bytes} {v : Json} (hv : Json.parse? source = some v) :
    (unknown name source).payloadJson? = some v.shield := by
  cases source with
  | nil =>
    rw [Json.parse?, Json.read?, Json.resume?.eq_def] at hv
    cases hv
  | cons a source =>
    rw [payloadJson?, hv]
    rfl

/-- **A message is read back from its text.**

**Proof sketch.** The text is an envelope, which is read back because its payload leaves room for
it. Then the payload is read back as the action asks; that of an unknown action is its own source
text. -/
theorem parse_print (hm : m.Conforms) (htext : m.print = .ok text) : parse text = .ok m := by
  obtain ⟨payload, hpayload, hfits, rfl⟩ := of_print htext
  have hmax : Json.Fits Json.maxDepth payload := hfits.mono (by decide)
  have hread (h : parsePayload m.action payload.print = .ok m) :
      parse (envelope m.action payload).print = .ok m := by
    rw [parse_envelope hm.isValid_action hfits, h]
    rfl
  refine hread ?_
  cases m with
  | hello identifier =>
    obtain rfl := Option.some.inj hpayload
    exact parseHello_print hm hmax
  | analyse files =>
    obtain rfl := Option.some.inj hpayload
    have hmend : files.map Utf8.mend = files :=
      (List.map_congr_left fun f hf => Utf8.mend_of_isValid (hm f hf).2).trans (List.map_id files)
    refine (parseAnalyse_print (fun f hf => (hm f hf).1) hmax).trans ?_
    rw [hmend]
  | result r =>
    obtain rfl := Option.some.inj hpayload
    refine (parseResult_print r hmax).trans ?_
    rw [if_pos hm.1, if_pos hm.2.1, Result.mended, Diagnostic.map_mended hm.2.2]
  | unknown name source =>
    obtain ⟨⟨-, -, hknown⟩, v, hv, hprint⟩ := hm
    obtain rfl := Option.some.inj ((payloadJson?_unknown hv).symm.trans hpayload)
    simp only [knownActions, List.mem_cons, List.not_mem_nil, or_false, not_or] at hknown
    rw [action, hprint, parsePayload, if_neg hknown.1, if_neg hknown.2.1, if_neg hknown.2.2]

/-- What is read off the text of a batch of files: the batch with its paths mended, or an error if
a path is empty. -/
lemma parse_analyse {files : List Bytes} (htext : (analyse files).print = .ok text) :
    (∀ m, parse text = .ok m → m = .analyse (files.map Utf8.mend)) ∧
      ((∀ f ∈ files, f ≠ []) → parse text = .ok (.analyse (files.map Utf8.mend))) := by
  have haction : utf8 "analyse" ≠ [] ∧ Utf8.isValid (utf8 "analyse") = true :=
    Conforms.isValid_action (m := .analyse []) nofun
  have hfits : Json.Fits (Json.maxDepth - 1) _ := (fits_files files).mono (by decide)
  have hmax := hfits.mono (Nat.sub_le Json.maxDepth 1)
  obtain rfl := Except.ok.inj ((print_analyse files).symm.trans htext)
  rw [parse_envelope haction hfits]
  change (∀ m, (parseAnalyse _).mapError _ = .ok m → _) ∧ (_ → (parseAnalyse _).mapError _ = _)
  refine ⟨fun m hm => ?_, fun hne => ?_⟩
  · rw [parseAnalyse, readStrict_analyse files hmax] at hm
    simp only at hm
    split at hm
    · cases hm
    · exact (Except.ok.inj hm).symm
  · rw [parseAnalyse_print hne hmax]
    rfl

/-- What is read off the text of a result: the result with its diagnostics mended, or an error if a
count is negative. -/
lemma parse_result {r : Result} (htext : (result r).print = .ok text) :
    (∀ m, parse text = .ok m → m = .result r.mended) ∧
      (0 ≤ r.files ∧ 0 ≤ r.internal → parse text = .ok (.result r.mended)) := by
  have haction : utf8 "result" ≠ [] ∧ Utf8.isValid (utf8 "result") = true :=
    Conforms.isValid_action (m := .result {}) ⟨by decide, by decide, nofun⟩
  have hfits : Json.Fits (Json.maxDepth - 1) _ := (fits_resultJson r).mono (by decide)
  have hmax := hfits.mono (Nat.sub_le Json.maxDepth 1)
  obtain rfl := Except.ok.inj ((print_result r).symm.trans htext)
  rw [parse_envelope haction hfits]
  change (∀ m, (parseResult _).mapError _ = .ok m → _) ∧ (_ → (parseResult _).mapError _ = _)
  rw [parseResult_print r hmax]
  refine ⟨fun m hm => ?_, fun hcounts => ?_⟩
  · split at hm
    · split at hm
      · exact (Except.ok.inj hm).symm
      · cases hm
    · cases hm
  · rw [if_pos hcounts.1, if_pos hcounts.2]
    rfl

/-- **The text of a message is in braces and has no control character.** -/
theorem text_of_print (htext : m.print = .ok text) :
    (∃ s, text = byte '{' :: (s ++ [byte '}'])) ∧ ∀ a ∈ text, 0x20 ≤ a := by
  obtain ⟨payload, -, hpayload, rfl⟩ := of_print htext
  have hfits := fits_envelope m.action hpayload
  exact ⟨⟨_, Json.print_object _⟩, hfits.wellFormed.le_of_mem_print⟩

end RoundTrip

end Message

end LintPool
