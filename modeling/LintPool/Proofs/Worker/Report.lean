import LintPool.Proofs.Message.Error
import LintPool.Proofs.Stream.RoundTrip
import LintPool.Proofs.Worker.Trace
import Mathlib

/-!
# The report of a failure

A worker that cannot read its stream any more sends a last result that carries the text of the
failure. The result goes through the same encoder as every message, so that it is sent if and only
if its own text is not too long. The text of the failure may name a key or a value of the line that
could not be read, and a byte of it may become six bytes. If the texts that the program does not
word itself are concise, lines up to a sixth of the greatest length are therefore always reported,
while the failure of a longer line may be lost.

## Main definitions

* `LintPool.Worker.stop?` : why a worker stops whose writes succeed.
* `LintPool.Worker.work` : what it sends before it stops.
* `LintPool.Worker.reportSize` : the length of its report.

## Main results

* `LintPool.Stream.length_of_error` : how long the error of a stream is when it is sent.
* `LintPool.Worker.serve_report` : when a failure is reported.
* `LintPool.Worker.serve_unreported` : a failure that is not.
-/

namespace LintPool

/-! ## The errors of streams -/

namespace Blank

/-- Trimming does not make a text longer. -/
lemma length_trim_le (s : Bytes) : (trim s).length ≤ s.length := by
  have hstart (s : Bytes) : (trimStart s).length ≤ s.length := by
    fun_induction trimStart s with
    | case1 s rest h ih =>
      exact Nat.le_trans ih (Nat.le_of_lt (length_of_dropOne? nil_notMem_encodings h))
    | case2 => exact Nat.le_refl _
  have hback (s : Bytes) : (trimBackwards s).length ≤ s.length := by
    fun_induction trimBackwards s with
    | case1 s rest h ih =>
      exact Nat.le_trans ih (Nat.le_of_lt (length_of_dropOne? nil_notMem_encodingsBackwards h))
    | case2 => exact Nat.le_refl _
  rw [trim, trimEnd, List.length_reverse]
  refine Nat.le_trans (hback _) ?_
  rw [List.length_reverse]
  exact hstart s

end Blank

namespace Stream

section Errors

variable {s : Bytes} {ending : Ending} {cuts : List Nat} {e : StreamError} {n : Nat}
  {w : Json.Wording}

/-- Dropping a carriage return does not make a line longer. -/
lemma length_dropReturn_le (line : Bytes) : (dropReturn line).length ≤ line.length := by
  unfold dropReturn
  split
  · rw [List.length_dropLast]
    omega
  · exact Nat.le_refl _

/-- The error of some lines is that of one of them, or the one behind them. -/
lemma of_error_decodeLines {last : Option StreamError} {acc : List Message} {lines : List Bytes}
    (h : (decodeLines last acc lines).error = some e) :
    last = some e ∨ ∃ line ∈ lines, decodeLine line = some (.error e) := by
  induction lines generalizing acc with
  | nil => exact .inl h
  | cons line lines ih =>
    rw [decodeLines] at h
    have hlater {acc : List Message} (h : (decodeLines last acc lines).error = some e) :
        last = some e ∨ ∃ l ∈ line :: lines, decodeLine l = some (.error e) := by
      rcases ih h with hlast | ⟨l, hl, he⟩
      · exact .inl hlast
      · exact .inr ⟨l, List.mem_cons_of_mem line hl, he⟩
    split at h
    · exact hlater h
    · exact hlater h
    · rename_i heq
      obtain rfl := Option.some.inj h
      exact .inr ⟨line, List.mem_cons_self, heq⟩

/-- The error of a line, when it is sent. -/
lemma length_of_decodeLine (hw : w.Concise) {line : Bytes}
    (h : decodeLine line = some (.error e)) :
    (Json.escape (e.message w)).length ≤ 6 * line.length + 1065 := by
  have htext : (Blank.trim (dropReturn line)).length ≤ line.length :=
    Nat.le_trans (Blank.length_trim_le _) (length_dropReturn_le line)
  have hlead : Json.Inert (utf8 "malformed message: ") ∧
      (utf8 "malformed message: ").length = 19 := by decide
  rw [decodeLine] at h
  split at h
  · cases h
  · split at h
    · cases h
    · rename_i e' hparse
      obtain rfl := Except.error.inj (Option.some.inj h)
      have hlength := Message.length_escape_message_le hw hparse
      rw [StreamError.message, hlead.1.length_escape_append, hlead.2]
      omega

/-- **The error of a stream**, when it is sent, if every line that fits and the cause of a failed
read have at most `n` bytes. -/
theorem length_of_error (hw : w.Concise) (h : (decode s ending cuts).error = some e)
    (hlines : ∀ line ∈ Bytes.lines s, line.length ≤ maxSize → line.length ≤ n)
    (hcause : ∀ cause, ending = .broken cause → cause.length ≤ n) :
    (Json.escape (e.message w)).length ≤ 6 * n + 1065 := by
  rw [decode_eq] at h
  rcases of_error_decodeLines h with hlast | ⟨line, hline, he⟩
  · split at hlast
    · obtain rfl := Option.some.inj hlast
      have hfixed : Json.Inert (StreamError.message default .tooLarge) ∧
          (StreamError.message default .tooLarge).length ≤ 1065 := by decide
      exact Message.length_escape_fixed hfixed
    · cases ending with
      | closed => cases hlast
      | broken cause =>
        obtain rfl := Option.some.inj hlast
        have hlead : Json.Inert (utf8 "read: ") ∧ (utf8 "read: ").length = 6 := by decide
        have hlength := Json.length_escape_le cause
        have hn := hcause cause rfl
        rw [StreamError.message, hlead.1.length_escape_append, hlead.2]
        omega
  · have hfits : line.length ≤ maxSize := by simpa using List.mem_takeWhile_imp hline
    have hmem : line ∈ Bytes.lines s := (List.takeWhile_sublist _).subset hline
    have hn := hlines line hmem hfits
    have hlength := length_of_decodeLine hw he
    omega

end Errors

end Stream

namespace Worker

/-! ## Reports -/

/-- The length of the text of the report of a failure. -/
def reportSize (w : Json.Wording) (f : Failure) : Nat := (Json.escape (f.message w)).length + 134

/-- The text of a result with a single failure. -/
lemma length_report (cause : Bytes) :
    (Message.envelope (utf8 "result") (Message.resultJson (.ofFailure cause))).print.length =
      (Json.escape cause).length + 134 := by
  have haction : (Json.text (utf8 "result")).print.length = 8 := by
    have hinert : Json.Inert (utf8 "result") := by decide
    rw [Json.text, Json.print, Json.quote, List.length_append, List.length_cons,
      hinert.length_escape]
    decide
  have hcounts : (Json.int 0).print.length = 1 ∧ (Json.int 1).print.length = 1 ∧
      (Json.bool false).print.length = 5 := by
    rw [Json.int, Json.int, Json.print, Json.print, Json.print]
    decide
  have hkeys : [(utf8 "action").length, (utf8 "payload").length, (utf8 "errors").length,
      (utf8 "filesCount").length, (utf8 "internalErrorsCount").length,
      (utf8 "hasInferrablePropertyTypesFromConstructor").length] = [6, 7, 6, 10, 19, 41] := by
    decide
  have hcause : (Diagnostic.toJson (.failure cause)).print.length =
      (Json.escape cause).length + 2 := by
    change (Json.print (.text cause)).length = _
    rw [Json.text, Json.print, Json.quote]
    simp
  simp only [List.cons.injEq, and_true] at hkeys
  simp [Message.envelope, Message.resultJson, Result.ofFailure, Json.member,
    Json.length_print_object, Json.length_printMember, Json.length_print_array, haction, hcounts,
    hcause, hkeys]
  omega

/-- **A report is sent** unless its text is too long. -/
lemma reportOf_eq (w : Json.Wording) (f : Failure) :
    if reportSize w f ≤ Stream.maxSize then
      ∃ frame, Stream.encode (.result (.ofFailure (f.message w))) = .ok frame ∧
        reportOf w f = [frame]
    else reportOf w f = [] := by
  have hencode : Stream.encode (.result (.ofFailure (f.message w))) =
      if Stream.maxSize < reportSize w f then
        .error (.tooLarge (utf8 "result") (reportSize w f))
      else .ok ((Message.envelope (utf8 "result")
        (Message.resultJson (.ofFailure (f.message w)))).print ++ [byte '\n']) := by
    rw [Stream.encode, Message.print_result]
    simp only [length_report, reportSize]
    rfl
  rw [reportOf, hencode]
  split
  · rename_i hle
    rw [if_neg (Nat.not_lt.mpr hle)]
    exact ⟨_, rfl, rfl⟩
  · rename_i hle
    rw [if_pos (Nat.not_le.mp hle)]
    rfl

/-- Why a worker stops whose writes succeed, if it does not end with its stream. -/
def stop? (identifier : Bytes) (analyzer : Analyzer) (d : Stream.Decoded) : Option Failure :=
  match Stream.encode (.hello identifier) with
  | .ok _ => failure? analyzer d
  | .error e => some (.handshake e)

/-- The frames that it sends before it stops. -/
def work (identifier : Bytes) (analyzer : Analyzer) (d : Stream.Decoded) : List Bytes :=
  match Stream.encode (.hello identifier) with
  | .ok hello => hello :: replies analyzer (batches d.messages)
  | .error _ => []

/-- The greatest length of a line, and of the cause of a failed read, whose failure is reported
whatever it is, in concise words. -/
def longestReported : Nat := 698000

/-- Whether the lines that fit and the cause of a failed read are short enough for a report. -/
def Connection.Modest (c : Connection) : Prop :=
  (∀ line ∈ Bytes.lines c.inbound, line.length ≤ Stream.maxSize → line.length ≤ longestReported) ∧
    ∀ cause, c.ending = .broken cause → cause.length ≤ longestReported

section Serve

variable {w : Json.Wording} {identifier : Bytes} {analyzer : Analyzer} {c : Connection}

/-- A session whose writes succeed. -/
lemma serve_of_writes (w : Json.Wording) (identifier : Bytes) (hcalm : analyzer.NeverCancels)
    (hwrites : c.failsFrom = 0) :
    (serve w identifier analyzer c).sent =
        work identifier analyzer c.received ++
          (stop? identifier analyzer c.received).toList.flatMap (reportOf w) ∧
      (serve w identifier analyzer c).error =
        (stop? identifier analyzer c.received).map .failed := by
  have hthrough (writes : Nat) (frames : List Bytes) : c.through writes frames = frames :=
    if_pos hwrites
  cases hhello : Stream.encode (.hello identifier) with
  | error e =>
    obtain ⟨hsent, -, herror⟩ :=
      Session.fail_spec w identifier c (.handshake e) { phase := .handshaking }
    rw [serve, Session.send_of_error hhello, work, stop?, hhello]
    refine ⟨hsent.trans ?_, herror⟩
    rw [hthrough]
    simp
  | ok hello =>
    have hfollowed : Followed w analyzer c c.received.messages c.received.error
        { sent := [hello], writes := 1, phase := .idle }
        (answerAll w identifier analyzer c { sent := [hello], writes := 1, phase := .idle }
          c.received.yields) := followed_answerAll hcalm rfl rfl
    rw [serve_of_accepts w hhello (.inl hwrites), work, stop?, hhello]
    refine ⟨?_, hfollowed.cause (hthrough _ _)⟩
    refine hfollowed.sent.trans ?_
    rw [hthrough]
    rfl

/-- A stream that breaks stops the worker. -/
lemma exists_stop (identifier : Bytes) (analyzer : Analyzer) {d : Stream.Decoded}
    (herror : d.error ≠ none) : ∃ f, stop? identifier analyzer d = some f := by
  unfold stop?
  split
  · refine Option.ne_none_iff_exists'.mp fun hnone => herror ?_
    exact (failure?_eq_none_iff.mp hnone).1
  · exact ⟨_, rfl⟩

/-- A worker that stops because of its stream does so because of the error of this stream. -/
lemma error_of_stop {d : Stream.Decoded} {e : Stream.StreamError}
    (h : stop? identifier analyzer d = some (.receive e)) : d.error = some e := by
  unfold stop? at h
  split at h
  · unfold failure? at h
    cases hreply : unsendable? analyzer (batches d.messages) with
    | some e' =>
      rw [hreply] at h
      cases h
    | none =>
      rw [hreply] at h
      cases hd : d.error with
      | none =>
        rw [hd] at h
        cases h
      | some e' =>
        rw [hd] at h
        cases h
        rfl
  · cases h

/-- **When a failure is reported.** A worker whose stream breaks while its writes succeed stops with
a failure, whatever the words of the errors are. If the report of this failure is not too long, it
is the last frame that the worker sends; otherwise the worker sends nothing about it. It is not too
long if the failure is that of a modest stream, in concise words. -/
theorem serve_report (w : Json.Wording) (identifier : Bytes) (hcalm : analyzer.NeverCancels)
    (hwrites : c.failsFrom = 0) (herror : c.received.error ≠ none) :
    ∃ f, stop? identifier analyzer c.received = some f ∧
      (serve w identifier analyzer c).error = some (.failed f) ∧
      ((reportSize w f ≤ Stream.maxSize ∧
          ∃ frame, Stream.encode (.result (.ofFailure (f.message w))) = .ok frame ∧
            (serve w identifier analyzer c).sent = work identifier analyzer c.received ++ [frame]) ∨
        (Stream.maxSize < reportSize w f ∧
          (serve w identifier analyzer c).sent = work identifier analyzer c.received)) ∧
      ((∃ e, f = .receive e) → w.Concise → c.Modest → reportSize w f ≤ Stream.maxSize) := by
  obtain ⟨f, hf⟩ := exists_stop identifier analyzer herror
  obtain ⟨hsent, hfailed⟩ := serve_of_writes w identifier hcalm hwrites
  rw [hf] at hsent hfailed
  rw [Option.toList_some, List.flatMap_singleton] at hsent
  have hreport := reportOf_eq w f
  refine ⟨f, hf, hfailed, ?_, ?_⟩
  · split at hreport
    · rename_i hle
      obtain ⟨frame, hencode, hreport⟩ := hreport
      exact .inl ⟨hle, frame, hencode, hreport ▸ hsent⟩
    · rename_i hle
      rw [hreport, List.append_nil] at hsent
      exact .inr ⟨Nat.not_le.mp hle, hsent⟩
  · rintro ⟨e, rfl⟩ hw ⟨hlines, hcause⟩
    have hlength := Stream.length_of_error hw (error_of_stop hf) hlines hcause
    rw [reportSize, Failure.message, Stream.maxSize]
    rw [longestReported] at hlength
    omega

end Serve

/-! ## A line of angle brackets -/

/-- A key of angle brackets. -/
def angles (n : Nat) : Bytes := List.replicate n (byte '<')

/-- An object with this key. -/
def anglesJson (n : Nat) : Json := .object [(angles n, .int 1)]

section Angles

variable {n : Nat}

/-- Angle brackets need no escapes where they are read. -/
lemma isName_angles (n : Nat) : Json.IsName (angles n) := by
  intro a ha
  rw [List.eq_of_mem_replicate ha]
  decide

/-- The object is read back from its text. -/
lemma fits_anglesJson (n : Nat) : Json.Fits 1 (anglesJson n) :=
  Json.MembersFit.object (List.forall_mem_singleton.mpr ⟨isName_angles n, Json.fits_int 0 1⟩)

/-- No field of a message is named by angle brackets. -/
lemma lookupField_angles (n : Nat) : Json.lookupField Message.envelopeFields (angles n) = none := by
  have hname : ∀ f ∈ Message.envelopeFields, Json.IsName f.name ∧
      ∃ a ∈ f.name, CaseFold.fold (Char.ofNat a.toNat) ≠ CaseFold.fold '<' := by decide
  refine List.find?_eq_none.mpr fun f hf heq => ?_
  obtain ⟨hisName, a, ha, hne⟩ := hname f hf
  rw [CaseFold.eqFold, beq_iff_eq, hisName.foldText, (isName_angles n).foldText] at heq
  have hmem := List.mem_map_of_mem (f := fun a : UInt8 => CaseFold.fold (Char.ofNat a.toNat)) ha
  rw [heq] at hmem
  obtain ⟨b, hb, hfold⟩ := List.mem_map.mp hmem
  rw [List.eq_of_mem_replicate hb] at hfold
  exact hne hfold.symm

/-- The text of the object is no message. -/
lemma parse_angles (n : Nat) :
    Message.parse (anglesJson n).print =
      .error (.envelope (.mismatch (.unknownField (angles n)))) := by
  have htrim : (Blank.trimStart (anglesJson n).print).isEmpty = false := by
    rw [anglesJson, Json.print_object, Blank.trimStart_brace]
    rfl
  have hmember : Json.readMember .strict Message.envelopeFields [] (angles n, .int 1) =
      .error (.mismatch (.unknownField (angles n))) := by
    unfold Json.readMember
    simp only [(isName_angles n).unescape, lookupField_angles]
  have hread : Json.readRecord .strict Message.envelopeFields [] (anglesJson n) =
      .error (.mismatch (.unknownField (angles n))) := by
    rw [anglesJson, Json.readRecord, List.foldlM_cons, hmember]
    rfl
  rw [Message.parse, Message.readStrict, htrim, ((fits_anglesJson n).mono (by decide)).read?_print]
  simp only [hread]
  rfl

/-- A connection over which the text of the object comes in. -/
def anglesConnection (n : Nat) : Connection where
  inbound := (anglesJson n).print ++ [byte '\n']

/-- The failure of a worker at such a connection. -/
def anglesFailure (n : Nat) : Failure :=
  .receive (.malformed (.envelope (.mismatch (.unknownField (angles n)))))

/-- What comes in breaks with the error that names the key. -/
lemma received_angles (hn : n + 6 ≤ Stream.maxSize) :
    (anglesConnection n).received =
      { messages := []
        error := some (.malformed (.envelope (.mismatch (.unknownField (angles n))))) } := by
  have hlength : (anglesJson n).print.length = n + 6 := by
    have hone : (Json.int 1).print.length = 1 := by
      rw [Json.int, Json.print]
      decide
    simp [anglesJson, Json.length_print_object, Json.length_printMember, angles, hone]
  have hnewline : byte '\n' ∉ (anglesJson n).print := fun hmem =>
    absurd ((fits_anglesJson n).wellFormed.le_of_mem_print _ hmem) (by decide)
  have hlines : Bytes.lines (anglesConnection n).inbound = [(anglesJson n).print] :=
    Bytes.lines_append hnewline []
  have hline : Stream.decodeLine (anglesJson n).print =
      some (.error (.malformed (.envelope (.mismatch (.unknownField (angles n)))))) := by
    have hparse := parse_angles n
    rw [anglesJson, Json.print_object] at hparse ⊢
    rw [Stream.decodeLine, Stream.dropReturn_braces, Blank.trim_braces, hparse]
    rfl
  have hfit : ∀ line ∈ Bytes.lines (anglesConnection n).inbound,
      line.length ≤ Stream.maxSize := by
    rw [hlines, List.forall_mem_singleton, hlength]
    exact hn
  rw [Connection.received, Stream.decode_of_fit hfit, hlines, Stream.decodeLines, hline]
  rfl

/-- Every angle bracket takes six bytes in the report. -/
lemma reportSize_angles (w : Json.Wording) (n : Nat) :
    reportSize w (anglesFailure n) = 6 * n + 194 := by
  have hlead : Json.Inert (utf8 "malformed message: ") ∧ Json.Inert (utf8 "invalid message: ") ∧
      Json.Inert (utf8 "json: unknown field ") := by decide
  have hlength : (utf8 "malformed message: ").length = 19 ∧
      (utf8 "invalid message: ").length = 17 ∧ (utf8 "json: unknown field ").length = 20 := by
    decide
  have hangles : angles n = Utf8.encodeAll (List.replicate n '<') := by
    induction n with
    | zero => rfl
    | succ n ih =>
      rw [angles, List.replicate_succ, List.replicate_succ]
      exact congrArg (byte '<' :: ·) ih
  have hangle : (Json.escape (Quoted.char '<')).length = 6 := by
    have hchar : Quoted.char '<' = Utf8.encode '<' := by decide
    rw [hchar, Json.escape_encode]
    decide
  have hmessage : (anglesFailure n).message w = utf8 "malformed message: " ++
      (utf8 "invalid message: " ++ (utf8 "json: unknown field " ++ quoted (angles n))) := rfl
  rw [reportSize, hmessage, hlead.1.length_escape_append, hlead.2.1.length_escape_append,
    hlead.2.2.length_escape_append, hangles, Json.length_escape_quoted, List.map_replicate,
    List.sum_replicate, hangle, smul_eq_mul]
  omega

/-- An analyzer that finds nothing. -/
def quiet : Analyzer := fun _ _ => { outcome := .done [] false }

/-- It does not cancel its job. -/
lemma neverCancels_quiet : quiet.NeverCancels := fun _ _ => rfl

/-- The hello of a worker named `w`. -/
def helloFrame : Bytes :=
  utf8 "\x7b\"action\":\"hello\",\"payload\":\x7b\"identifier\":\"w\"\x7d\x7d\n"

/-- What a worker does at such a connection before it stops, and why it stops. -/
lemma stop_angles (hn : n + 6 ≤ Stream.maxSize) :
    work (utf8 "w") quiet (anglesConnection n).received = [helloFrame] ∧
      stop? (utf8 "w") quiet (anglesConnection n).received = some (anglesFailure n) := by
  have hhello : Stream.encode (.hello (utf8 "w")) = .ok helloFrame := by cbv
  rw [work, stop?, hhello, received_angles hn]
  exact ⟨rfl, rfl⟩

end Angles

/-- A short key is reported. -/
theorem serve_report_angles :
    ((anglesConnection 3).received.error ≠ none ∧ (anglesConnection 3).failsFrom = 0) ∧
      ∃ frame,
        Stream.encode (.result (.ofFailure ((anglesFailure 3).message default))) = .ok frame ∧
          (serve default (utf8 "w") quiet (anglesConnection 3)).sent = [helloFrame, frame] := by
  have herror : (anglesConnection 3).received.error ≠ none := by
    rw [received_angles (by decide)]
    nofun
  obtain ⟨hwork, hstop⟩ := stop_angles (n := 3) (by decide)
  obtain ⟨f, hf, -, hsent, -⟩ := serve_report default (utf8 "w") neverCancels_quiet rfl herror
  obtain rfl := Option.some.inj (hf.symm.trans hstop)
  refine ⟨⟨herror, rfl⟩, ?_⟩
  rcases hsent with ⟨-, frame, hencode, hsent⟩ | ⟨hsize, -⟩
  · rw [hwork] at hsent
    exact ⟨frame, hencode, hsent⟩
  · rw [reportSize_angles] at hsize
    exact absurd hsize (by decide)

/-- **A failure that is not reported.** A worker that receives a line with a long unknown key stops
with a failure, but the report that would name this key is too long, and nothing is sent. -/
theorem serve_unreported :
    (serve default (utf8 "w") quiet (anglesConnection 700000)).error =
        some (.failed (anglesFailure 700000)) ∧
      (serve default (utf8 "w") quiet (anglesConnection 700000)).sent = [helloFrame] := by
  have hlong : ¬ reportSize default (anglesFailure 700000) ≤ Stream.maxSize := by
    rw [reportSize_angles]
    decide
  obtain ⟨hwork, hstop⟩ := stop_angles (n := 700000) (by decide)
  obtain ⟨hsent, herror⟩ := serve_of_writes default (utf8 "w") neverCancels_quiet
    (show (anglesConnection 700000).failsFrom = 0 from rfl)
  have hreport := reportOf_eq default (anglesFailure 700000)
  rw [if_neg hlong] at hreport
  rw [hwork, hstop, Option.toList_some, List.flatMap_singleton, hreport] at hsent
  rw [hstop] at herror
  exact ⟨herror, hsent⟩

end Worker

end LintPool
