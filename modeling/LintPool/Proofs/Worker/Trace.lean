import LintPool.Worker
import LintPool.Proofs.Analysis.Isolation
import LintPool.Proofs.Stream.RoundTrip
import Mathlib

/-!
# What a worker sends

A worker that is not cancelled follows a script that the messages of its stream determine: a hello,
a reply to each batch in order, and at most one report of the failure that stops it. If writes fail
from some point on, it sends the frames of this script up to there and nothing else. Its analyzer
is called for the files of the batches that it comes to, and for no others; the calls are those that
the analyzer itself has on record.

## Main definitions

* `LintPool.Worker.batches` : the batches among the messages of a stream.
* `LintPool.Worker.replies` : the frames that answer them.
* `LintPool.Worker.failure?` : why a worker stops whose writes succeed.
* `LintPool.Worker.script` : the frames that such a worker sends.
* `LintPool.Worker.Connection.through` : the frames that go out before writes fail.
* `LintPool.Worker.Connection.reached` : the batches that a worker comes to.

## Main results

* `LintPool.Worker.followed_answerAll` : what comes of the messages of a stream.
* `LintPool.Worker.serve_follows_script` : a whole session.
-/

namespace LintPool.Worker

/-! ## The script -/

section Script

variable (w : Json.Wording) (analyzer : Analyzer)

/-- The batches of files among some messages, in order. -/
def batches (ms : List Message) : List (List Bytes) :=
  ms.filterMap fun
    | .analyse files => some files
    | _ => none

/-- The frame of the reply to a batch, which depends on this batch alone. -/
def replyTo (files : List Bytes) : Except Stream.SendError Bytes :=
  Stream.encode (.result (analyseBatch analyzer false files).result)

/-- The frames of the replies before the first one that cannot be encoded. -/
def replies : List (List Bytes) → List Bytes
  | [] => []
  | files :: rest =>
    match replyTo analyzer files with
    | .ok frame => frame :: replies rest
    | .error _ => []

/-- The error of the first reply that cannot be encoded. -/
def unsendable? : List (List Bytes) → Option Stream.SendError
  | [] => none
  | files :: rest =>
    match replyTo analyzer files with
    | .ok _ => unsendable? rest
    | .error e => some e

/-- Why a worker stops whose writes succeed, if it does not end with its stream. -/
def failure? (d : Stream.Decoded) : Option Failure :=
  ((unsendable? analyzer (batches d.messages)).map .reply).or (d.error.map .receive)

/-- The frame of the report of a failure, unless it is too long. -/
def reportOf (f : Failure) : List Bytes :=
  (Stream.encode (.result (.ofFailure (f.message w)))).toOption.toList

/-- The frames that a worker sends after its hello if no write fails. -/
def answers (d : Stream.Decoded) : List Bytes :=
  replies analyzer (batches d.messages) ++ ((failure? analyzer d).toList.flatMap (reportOf w))

variable {w} {analyzer}

/-- A batch whose reply can be encoded adds its frame. -/
lemma answers_of_ok {files frame : _} {ms : List Message} {e : Option Stream.StreamError}
    (h : replyTo analyzer files = .ok frame) :
    answers w analyzer ⟨.analyse files :: ms, e⟩ = frame :: answers w analyzer ⟨ms, e⟩ := by
  simp only [answers, failure?, batches, List.filterMap_cons, replies, unsendable?, h,
    List.cons_append]

/-- A batch whose reply cannot be encoded is followed by a report only. -/
lemma answers_of_error {files : List Bytes} {ms : List Message} {e : Option Stream.StreamError}
    {e' : Stream.SendError} (h : replyTo analyzer files = .error e') :
    answers w analyzer ⟨.analyse files :: ms, e⟩ = reportOf w (.reply e') := by
  simp only [answers, failure?, batches, List.filterMap_cons, replies, unsendable?, h,
    Option.map_some, Option.some_or, Option.toList_some, List.flatMap_singleton, List.nil_append]

/-- A worker whose writes succeed stops early only because of its stream or of a reply. -/
lemma failure?_eq_none_iff {d : Stream.Decoded} :
    failure? analyzer d = none ↔
      d.error = none ∧ unsendable? analyzer (batches d.messages) = none := by
  rw [failure?, Option.or_eq_none_iff, Option.map_eq_none_iff, Option.map_eq_none_iff, and_comm]

/-- Every reply can be encoded unless there is an error. -/
lemma unsendable?_eq_none_iff {bs : List (List Bytes)} :
    unsendable? analyzer bs = none ↔ ∀ files ∈ bs, ∃ frame, replyTo analyzer files = .ok frame := by
  induction bs with
  | nil => exact iff_of_true rfl nofun
  | cons files bs ih =>
    rw [unsendable?, List.forall_mem_cons]
    cases hreply : replyTo analyzer files with
    | ok frame => exact ih.trans (and_iff_right ⟨frame, rfl⟩).symm
    | error e => exact iff_of_false nofun fun h => nomatch h.1

/-- If every reply can be encoded, there is one for each batch. -/
lemma length_replies {bs : List (List Bytes)}
    (hbs : ∀ files ∈ bs, ∃ frame, replyTo analyzer files = .ok frame) :
    (replies analyzer bs).length = bs.length := by
  induction bs with
  | nil => rfl
  | cons files bs ih =>
    obtain ⟨⟨frame, hframe⟩, hbs⟩ := List.forall_mem_cons.mp hbs
    rw [replies, hframe, List.length_cons, ih hbs, List.length_cons]

end Script

/-! ## Writes -/

namespace Connection

section Writes

variable {c : Connection} {writes : Nat}

/-- The frames that go out of some that are written one after another, after a number of writes
before them. -/
def through (c : Connection) (writes : Nat) (frames : List Bytes) : List Bytes :=
  if c.failsFrom = 0 then frames else frames.take (c.failsFrom - 1 - writes)

/-- Whether the next write succeeds after a number of writes. -/
def Accepts (c : Connection) (writes : Nat) : Prop := c.failsFrom = 0 ∨ writes + 1 < c.failsFrom

/-- Of no frames none goes out. -/
@[simp] lemma through_nil (c : Connection) (writes : Nat) : c.through writes [] = [] := by
  rw [through, List.take_nil, ite_self]

/-- A frame goes out if the write succeeds. -/
lemma through_cons (h : c.Accepts writes) (frame : Bytes) (frames : List Bytes) :
    c.through writes (frame :: frames) = frame :: c.through (writes + 1) frames := by
  unfold through
  split
  · rfl
  · rename_i hpos
    have hlt : writes + 1 < c.failsFrom := h.resolve_left hpos
    have hroom : c.failsFrom - 1 - writes = (c.failsFrom - 1 - (writes + 1)) + 1 := by omega
    rw [hroom, List.take_succ_cons]

/-- Nothing goes out if the next write fails. -/
lemma through_of_not_accepts (h : ¬ c.Accepts writes) (frames : List Bytes) :
    c.through writes frames = [] := by
  obtain ⟨hpos, hlt⟩ := not_or.mp h
  have hroom : c.failsFrom - 1 - writes = 0 := by omega
  rw [through, if_neg hpos, hroom, List.take_zero]

/-- All frames go out if and only if no write of theirs fails. -/
lemma through_eq_self_iff {frames : List Bytes} :
    c.through writes frames = frames ↔
      c.failsFrom = 0 ∨ frames.length ≤ c.failsFrom - 1 - writes := by
  unfold through
  split
  · rename_i hzero
    exact iff_of_true rfl (.inl hzero)
  · rename_i hpos
    rw [List.take_eq_self_iff, or_iff_right hpos]

/-- After a write that fails all fail. -/
lemma not_accepts_succ (h : ¬ c.Accepts writes) : ¬ c.Accepts (writes + 1) := by
  obtain ⟨hpos, hlt⟩ := not_or.mp h
  exact not_or.mpr ⟨hpos, by omega⟩

end Writes

end Connection

namespace Session

section Sending

variable {c : Connection} {s : Session} {m : Message} {frame identifier : Bytes}

/-- The next write fails unless the connection accepts it. -/
lemma fault_of_accepts (h : c.Accepts s.writes) : s.fault c = none := by
  rw [fault, if_neg]
  rintro ⟨hpos, hle⟩
  have hlt : s.writes + 1 < c.failsFrom := h.resolve_left hpos
  omega

/-- The next write fails if the connection does not accept it. -/
lemma fault_of_not_accepts (h : ¬ c.Accepts s.writes) : s.fault c = some (utf8 "broken pipe") := by
  obtain ⟨hpos, hlt⟩ := not_or.mp h
  rw [fault, if_pos ⟨hpos, by omega⟩]

/-- A frame that is accepted goes out. -/
lemma send_of_accepts (hframe : Stream.encode m = .ok frame) (h : c.Accepts s.writes) :
    s.send c m = ({ s with sent := s.sent ++ [frame], writes := s.writes + 1 }, none) := by
  have hsend : Stream.send (s.fault c) m = .ok frame := by
    rw [Stream.send, hframe, fault_of_accepts h]
    rfl
  rw [send, hsend]

/-- A frame that is not accepted counts as a write. -/
lemma send_of_not_accepts (hframe : Stream.encode m = .ok frame) (h : ¬ c.Accepts s.writes) :
    s.send c m =
      ({ s with writes := s.writes + 1 }, some (.write m.action (utf8 "broken pipe"))) := by
  have hsend : Stream.send (s.fault c) m = .error (.write m.action (utf8 "broken pipe")) := by
    rw [Stream.send, hframe, fault_of_not_accepts h]
    rfl
  rw [send, hsend]

/-- A message that cannot be encoded is not written. -/
lemma send_of_error {e : Stream.SendError} (he : Stream.encode m = .error e) :
    s.send c m = (s, some e) := by
  have hsend : Stream.send (s.fault c) m = .error e := by
    rw [Stream.send, he]
    rfl
  have hwrite : ∀ action cause, e ≠ .write action cause := by
    rintro action cause rfl
    unfold Stream.encode at he
    split at he
    · cases he
    · split at he
      · cases he
      · cases he
  rw [send, hsend]
  cases e with
  | unprintable => rfl
  | tooLarge => rfl
  | write action cause => exact absurd rfl (hwrite action cause)

/-- Closing the sending side sends nothing. -/
@[simp] lemma sent_closeSending (identifier : Bytes) (c : Connection) (s : Session) :
    (s.closeSending identifier c).sent = s.sent := by
  unfold closeSending
  split
  · rfl
  · split <;> rfl

/-- Closing the sending side analyses nothing. -/
@[simp] lemma calls_closeSending (identifier : Bytes) (c : Connection) (s : Session) :
    (s.closeSending identifier c).calls = s.calls := by
  unfold closeSending
  split
  · rfl
  · split <;> rfl

/-- Whatever comes of it, sending a message adds at most its frame. -/
lemma send_eq (c : Connection) (m : Message) (s : Session) :
    ∃ writes error, s.send c m =
      ({ s with
        sent := s.sent ++ c.through s.writes (Stream.encode m).toOption.toList
        writes }, error) := by
  cases hencode : Stream.encode m with
  | error e =>
    refine ⟨s.writes, some e, ?_⟩
    rw [send_of_error hencode]
    change _ = (({ s with sent := s.sent ++ c.through s.writes [] } : Session), _)
    rw [Connection.through_nil, List.append_nil]
  | ok frame =>
    change ∃ writes error, _ = (({ s with
      sent := s.sent ++ c.through s.writes [frame], writes } : Session), error)
    by_cases h : c.Accepts s.writes
    · exact ⟨_, _, by rw [send_of_accepts hencode h, Connection.through_cons h,
        Connection.through_nil]⟩
    · exact ⟨_, _, by rw [send_of_not_accepts hencode h, Connection.through_of_not_accepts h,
        List.append_nil]⟩

/-- **A failure is reported at most once**, and nothing is analysed any more. -/
lemma fail_spec (w : Json.Wording) (identifier : Bytes) (c : Connection) (f : Failure)
    (s : Session) :
    (s.fail w identifier c f).sent = s.sent ++ c.through s.writes (reportOf w f) ∧
      (s.fail w identifier c f).calls = s.calls ∧
      (s.fail w identifier c f).error = some (.failed f) := by
  obtain ⟨writes, error, hsend⟩ := send_eq c (.result (.ofFailure (f.message w)))
    (s.note identifier (utf8 "connection failed: " ++ f.message w))
  rw [fail, hsend]
  cases error with
  | none => exact ⟨sent_closeSending .., calls_closeSending .., rfl⟩
  | some e => exact ⟨sent_closeSending .., calls_closeSending .., rfl⟩

end Sending

end Session

/-! ## Sessions -/

section Sessions

variable {w : Json.Wording} {analyzer : Analyzer} {c : Connection} {s t : Session}
  {ms : List Message} {e : Option Stream.StreamError} {identifier : Bytes}

/-- Whether a session went on from `s` to `t` as the script for some messages and the error behind
them has it. -/
structure Followed (w : Json.Wording) (analyzer : Analyzer) (c : Connection) (ms : List Message)
    (e : Option Stream.StreamError) (s t : Session) : Prop where
  sent : t.sent = s.sent ++ c.through s.writes (answers w analyzer ⟨ms, e⟩)
  /-- The batch after the last one that was replied to is the last one that is analysed. -/
  calls : t.calls = s.calls ++
    ((batches ms).take ((c.through s.writes (replies analyzer (batches ms))).length + 1)).flatMap
      (analyzer.examiner.calls false)
  error : t.error = none ↔ failure? analyzer ⟨ms, e⟩ = none ∧
    c.through s.writes (replies analyzer (batches ms)) = replies analyzer (batches ms)
  /-- Unless a reply is refused, the session fails as the script has it. -/
  cause : c.through s.writes (replies analyzer (batches ms)) = replies analyzer (batches ms) →
    t.error = (failure? analyzer ⟨ms, e⟩).map .failed

namespace Followed

/-- At the end of a stream nothing is left to do. -/
lemma ended (hs : s.error = none) : Followed w analyzer c [] none s s where
  sent := by
    change _ = _ ++ c.through _ []
    rw [Connection.through_nil, List.append_nil]
  calls := (List.append_nil _).symm
  error := iff_of_true hs ⟨rfl, Connection.through_nil ..⟩
  cause _ := hs

/-- An error of the stream is reported. -/
lemma received (identifier : Bytes) (e : Stream.StreamError) :
    Followed w analyzer c [] (some e) s (s.fail w identifier c (.receive e)) := by
  obtain ⟨hsent, hcalls, herror⟩ := s.fail_spec w identifier c (.receive e)
  have hanswers : answers w analyzer ⟨[], some e⟩ = reportOf w (.receive e) := List.append_nil _
  refine ⟨?_, ?_, ?_, fun _ => herror⟩
  · rw [hsent, hanswers]
  · rw [hcalls]
    exact (List.append_nil _).symm
  · rw [herror]
    exact iff_of_false nofun fun h => nomatch h.1

/-- A message that is no batch is passed over. -/
lemma ignored {m : Message} (hm : ∀ files, m ≠ .analyse files) (log : List Bytes)
    (h : Followed w analyzer c ms e { s with log } t) : Followed w analyzer c (m :: ms) e s t := by
  have hbatches : batches (m :: ms) = batches ms := by
    cases m with
    | analyse files => exact absurd rfl (hm files)
    | hello | result | unknown => rfl
  have hfailure : failure? analyzer ⟨m :: ms, e⟩ = failure? analyzer ⟨ms, e⟩ := by
    rw [failure?, hbatches, failure?]
  refine ⟨?_, ?_, ?_, fun hthrough => ?_⟩
  · rw [h.sent, answers, answers, hbatches, hfailure]
  · rw [h.calls, hbatches]
  · rw [h.error, hbatches, hfailure]
  · rw [hbatches] at hthrough
    rw [hfailure, h.cause hthrough]

/-- A batch is replied to, and the session goes on. -/
lemma replied {files : List Bytes} {frame : Bytes} {s' : Session}
    (hframe : replyTo analyzer files = .ok frame) (haccepts : c.Accepts s.writes)
    (hsent : s'.sent = s.sent ++ [frame]) (hwrites : s'.writes = s.writes + 1)
    (hcalls : s'.calls = s.calls ++ analyzer.examiner.calls false files)
    (h : Followed w analyzer c ms e s' t) :
    Followed w analyzer c (.analyse files :: ms) e s t := by
  have hbatches : batches (.analyse files :: ms) = files :: batches ms := rfl
  have hreplies :
      replies analyzer (files :: batches ms) = frame :: replies analyzer (batches ms) := by
    rw [replies, hframe]
  have hfailure : failure? analyzer ⟨.analyse files :: ms, e⟩ = failure? analyzer ⟨ms, e⟩ := by
    rw [failure?, hbatches, unsendable?, hframe, failure?]
  have hthrough := Connection.through_cons haccepts frame (replies analyzer (batches ms))
  refine ⟨?_, ?_, ?_, fun hall => ?_⟩
  · rw [h.sent, hsent, hwrites, answers_of_ok hframe, Connection.through_cons haccepts,
      List.append_assoc, List.singleton_append]
  · rw [h.calls, hcalls, hwrites, hbatches, hreplies, hthrough, List.length_cons,
      List.take_succ_cons, List.flatMap_cons, List.append_assoc]
  · rw [h.error, hwrites, hbatches, hreplies, hthrough, hfailure, List.cons_inj_right]
  · rw [hbatches, hreplies, hthrough, List.cons_inj_right, ← hwrites] at hall
    rw [hfailure, h.cause hall]

/-- A batch whose reply is refused ends the session without a report. -/
lemma refused {files : List Bytes} {frame : Bytes} {s' : Session}
    (hframe : replyTo analyzer files = .ok frame) (haccepts : ¬ c.Accepts s.writes)
    (hsent : s'.sent = s.sent) (hwrites : s'.writes = s.writes + 1)
    (hcalls : s'.calls = s.calls ++ analyzer.examiner.calls false files) (f : Failure) :
    Followed w analyzer c (.analyse files :: ms) e s (s'.fail w identifier c f) := by
  obtain ⟨hsent', hcalls', herror⟩ := s'.fail_spec w identifier c f
  have hbatches : batches (.analyse files :: ms) = files :: batches ms := rfl
  have hreplies :
      replies analyzer (files :: batches ms) = frame :: replies analyzer (batches ms) := by
    rw [replies, hframe]
  have hnone := Connection.through_of_not_accepts haccepts
  refine ⟨?_, ?_, ?_, fun hall => ?_⟩
  · rw [hsent', hsent, hwrites, hnone,
      Connection.through_of_not_accepts (Connection.not_accepts_succ haccepts)]
  · rw [hcalls', hcalls, hbatches, hnone, List.length_nil, List.take_succ_cons, List.take_zero,
      List.flatMap_singleton]
  · rw [herror, hbatches, hreplies, hnone]
    exact iff_of_false nofun fun h => nomatch h.2
  · rw [hbatches, hreplies, hnone] at hall
    cases hall

/-- A batch whose reply cannot be encoded ends the session with a report. -/
lemma unsendable {files : List Bytes} {e' : Stream.SendError} {s' : Session}
    (hreply : replyTo analyzer files = .error e') (hsent : s'.sent = s.sent)
    (hwrites : s'.writes = s.writes)
    (hcalls : s'.calls = s.calls ++ analyzer.examiner.calls false files) :
    Followed w analyzer c (.analyse files :: ms) e s (s'.fail w identifier c (.reply e')) := by
  obtain ⟨hsent', hcalls', herror⟩ := s'.fail_spec w identifier c (.reply e')
  have hbatches : batches (.analyse files :: ms) = files :: batches ms := rfl
  have hreplies : replies analyzer (files :: batches ms) = [] := by
    rw [replies, hreply]
  have hfailure : failure? analyzer ⟨.analyse files :: ms, e⟩ = some (.reply e') := by
    rw [failure?, hbatches, unsendable?, hreply]
    rfl
  refine ⟨?_, ?_, ?_, fun _ => ?_⟩
  · rw [hsent', hsent, hwrites, answers_of_error hreply]
  · rw [hcalls', hcalls, hbatches, hreplies, Connection.through_nil, List.length_nil,
      List.take_succ_cons, List.take_zero, List.flatMap_singleton]
  · rw [herror, hfailure]
    exact iff_of_false nofun fun h => nomatch h.1
  · rw [herror, hfailure]
    rfl

end Followed

/-- **What comes of the messages of a stream.**

**Proof sketch.** By induction on the messages. A batch is analysed and its reply sent; if this
fails, the session ends with a report, which does not go out if the reply was refused. Other
messages are passed over. -/
theorem followed_answerAll (hcalm : analyzer.NeverCancels) (hcancelled : s.cancelled = false)
    (herror : s.error = none) :
    Followed w analyzer c ms e s
      (answerAll w identifier analyzer c s
        (ms.map Stream.Answer.message ++ (e.map Stream.Answer.error).toList)) := by
  induction ms generalizing s with
  | nil =>
    cases e with
    | none => exact .ended herror
    | some e =>
      have hfail : answerAll w identifier analyzer c s [.error e] =
          s.fail w identifier c (.receive e) := by
        rw [answerAll, hcancelled]
        rfl
      exact hfail ▸ .received identifier e
  | cons m ms ih =>
    rw [List.map_cons, List.cons_append]
    cases m with
    | hello | result | unknown =>
      rw [answerAll]
      · exact .ignored nofun _ (ih hcancelled herror)
      · nofun
    | analyse files =>
      have hgoes : (analyseBatch analyzer false files).cancelled = false := by
        rw [hcalm.analyseBatch_eq]
      rw [answerAll, hcancelled, analyzer.analyseBatch_recording]
      dsimp only
      generalize hs' : ({ s with
        cancelled := (analyseBatch analyzer false files).cancelled
        calls := s.calls ++ analyzer.examiner.calls false files
        phase := .analysing } : Session) = s'
      have hsent : s'.sent = s.sent := hs' ▸ rfl
      have hwrites : s'.writes = s.writes := hs' ▸ rfl
      have hcalls : s'.calls = s.calls ++ analyzer.examiner.calls false files := hs' ▸ rfl
      cases hreply : replyTo analyzer files with
      | error e' =>
        rw [Session.send_of_error hreply]
        exact .unsendable hreply hsent hwrites hcalls
      | ok frame =>
        by_cases haccepts : c.Accepts s'.writes
        · rw [Session.send_of_accepts hreply haccepts]
          refine .replied hreply (hwrites ▸ haccepts) ?_ ?_ ?_ (ih ?_ ?_)
          · exact congrArg (· ++ [frame]) hsent
          · exact congrArg (· + 1) hwrites
          · exact hcalls
          · exact hs' ▸ hgoes
          · exact hs' ▸ herror
        · rw [Session.send_of_not_accepts hreply haccepts]
          refine .refused hreply (hwrites ▸ haccepts) ?_ ?_ ?_ _
          · exact hsent
          · exact congrArg (· + 1) hwrites
          · exact hcalls

end Sessions

/-- What a worker receives over its connection. -/
def Connection.received (c : Connection) : Stream.Decoded :=
  Stream.decode c.inbound c.ending c.cuts

/-- The frames that a worker sends if no write fails, the first of them its hello. -/
def script (w : Json.Wording) (hello : Bytes) (analyzer : Analyzer) (d : Stream.Decoded) :
    List Bytes :=
  hello :: answers w analyzer d

/-- The batches that a worker comes to: as many as frames of its hello and its replies go out. -/
def Connection.reached (c : Connection) (hello : Bytes) (analyzer : Analyzer) :
    List (List Bytes) :=
  (batches c.received.messages).take
    (c.through 0 (hello :: replies analyzer (batches c.received.messages))).length

section Serve

variable {identifier hello : Bytes} {analyzer : Analyzer} {c : Connection}

/-- A worker whose hello goes out answers what it receives. -/
lemma serve_of_accepts (w : Json.Wording) (hhello : Stream.encode (.hello identifier) = .ok hello)
    (haccepts : c.Accepts 0) :
    serve w identifier analyzer c =
      { answerAll w identifier analyzer c { sent := [hello], writes := 1, phase := .idle }
          c.received.yields with
        phase := .closed } := by
  rw [serve, Session.send_of_accepts hhello haccepts]
  rfl

/-- A worker whose hello is refused does nothing else. -/
lemma serve_of_not_accepts (w : Json.Wording) (analyzer : Analyzer)
    (hhello : Stream.encode (.hello identifier) = .ok hello) (haccepts : ¬ c.Accepts 0) :
    (serve w identifier analyzer c).sent = [] ∧ (serve w identifier analyzer c).calls = [] ∧
      (serve w identifier analyzer c).error ≠ none := by
  rw [serve, Session.send_of_not_accepts hhello haccepts]
  obtain ⟨hsent, hcalls, herror⟩ := Session.fail_spec w identifier c
    (.handshake (.write (utf8 "hello") (utf8 "broken pipe"))) { phase := .handshaking, writes := 1 }
  refine ⟨?_, hcalls, ?_⟩
  · refine hsent.trans ?_
    rw [Connection.through_of_not_accepts (Connection.not_accepts_succ haccepts)]
    rfl
  · intro hnone
    cases herror.symm.trans hnone

/-- The calls for the batches that a worker comes to are calls for their files, in order. -/
lemma Session.visited_of_calls {s : Session} {bs : List (List Bytes)}
    (h : s.calls = bs.flatMap (analyzer.examiner.calls false)) : s.visited = bs.flatten := by
  rw [visited, h, List.map_flatMap]
  simp only [Examiner.map_fst_calls, List.flatMap_id']

/-- **A worker follows its script.** It sends the frames of the script up to the first write that
fails; its analyzer gets the calls for the batches that the worker replied to and the one after
them, so it is called for the files of these batches, in order; the worker ends without an error if
and only if its stream did and every reply was sent; and it is closed in the end. -/
theorem serve_follows_script (w : Json.Wording)
    (hhello : Stream.encode (.hello identifier) = .ok hello) (hcalm : analyzer.NeverCancels)
    (c : Connection) :
    (serve w identifier analyzer c).sent = c.through 0 (script w hello analyzer c.received) ∧
      (serve w identifier analyzer c).calls =
        (c.reached hello analyzer).flatMap (analyzer.examiner.calls false) ∧
      (serve w identifier analyzer c).visited = (c.reached hello analyzer).flatten ∧
      ((serve w identifier analyzer c).error = none ↔
        c.received.error = none ∧
          (∀ files ∈ batches c.received.messages, ∃ frame, replyTo analyzer files = .ok frame) ∧
          (c.failsFrom = 0 ∨ (batches c.received.messages).length + 1 < c.failsFrom)) ∧
      (serve w identifier analyzer c).phase = .closed := by
  by_cases haccepts : c.Accepts 0
  · have hfollowed : Followed w analyzer c c.received.messages c.received.error
        { sent := [hello], writes := 1, phase := .idle }
        (answerAll w identifier analyzer c { sent := [hello], writes := 1, phase := .idle }
          c.received.yields) := followed_answerAll hcalm rfl rfl
    have hthrough := Connection.through_cons haccepts hello
    have hcalls : (serve w identifier analyzer c).calls =
        (c.reached hello analyzer).flatMap (analyzer.examiner.calls false) := by
      rw [serve_of_accepts w hhello haccepts, Connection.reached, hthrough, List.length_cons]
      exact hfollowed.calls
    refine ⟨?_, hcalls, Session.visited_of_calls hcalls, ?_, rfl⟩
    · rw [serve_of_accepts w hhello haccepts, script, hthrough]
      exact hfollowed.sent
    · rw [serve_of_accepts w hhello haccepts]
      refine hfollowed.error.trans ?_
      rw [failure?_eq_none_iff, unsendable?_eq_none_iff, and_assoc, Connection.through_eq_self_iff]
      refine and_congr_right fun _ => and_congr_right fun hreplies => ?_
      rw [length_replies hreplies]
      rw [Connection.Accepts] at haccepts
      simp only
      omega
  · obtain ⟨hsent, hnocalls, herror⟩ := serve_of_not_accepts w analyzer hhello haccepts
    have hnone := Connection.through_of_not_accepts haccepts
    have hcalls : (serve w identifier analyzer c).calls =
        (c.reached hello analyzer).flatMap (analyzer.examiner.calls false) := by
      rw [hnocalls, Connection.reached, hnone, List.length_nil, List.take_zero, List.flatMap_nil]
    refine ⟨?_, hcalls, Session.visited_of_calls hcalls, iff_of_false herror fun h => ?_, rfl⟩
    · rw [hsent, hnone]
    · refine haccepts (h.2.2.imp_right fun hlt => ?_)
      omega

end Serve

/-! ## A busy connection -/

/-- Two batches, and between them a message that asks for nothing. -/
def requests : List Message :=
  [.analyse [utf8 "a", utf8 "b"], .hello (utf8 "x"), .analyse [utf8 "c"]]

/-- Their frames. -/
def requestFrames : List Bytes :=
  [utf8 "\x7b\"action\":\"analyse\",\"payload\":\x7b\"files\":[\"a\",\"b\"]\x7d\x7d\n",
    utf8 "\x7b\"action\":\"hello\",\"payload\":\x7b\"identifier\":\"x\"\x7d\x7d\n",
    utf8 "\x7b\"action\":\"analyse\",\"payload\":\x7b\"files\":[\"c\"]\x7d\x7d\n"]

/-- A connection that brings them in three reads, with a line behind them that is no message. -/
def busyLine : Connection where
  inbound := requestFrames.flatten ++ utf8 "\x7b\x7d\n"
  cuts := [20, 70]

/-- The same connection, over which the third write fails. -/
def brokenLine : Connection := { busyLine with failsFrom := 3 }

/-- An analyzer that has something to say about the file `b` only. -/
def picky : Analyzer := fun _ file =>
  { outcome := .done (if file = utf8 "b" then [.failure (utf8 "odd")] else []) false }

/-- The frame of its hello. -/
def pickyHello : Bytes :=
  utf8 "\x7b\"action\":\"hello\",\"payload\":\x7b\"identifier\":\"w\"\x7d\x7d\n"

/-- The frame of a result with the given members. -/
def resultFrame (errors counts : String) : Bytes :=
  utf8 ("\x7b\"action\":\"result\",\"payload\":\x7b\"errors\":[" ++ errors ++ "]," ++ counts ++
    ",\"hasInferrablePropertyTypesFromConstructor\":false\x7d\x7d\n")

/-- The frame of its reply to the first batch. -/
def firstReply : Bytes :=
  resultFrame "\"odd\"" "\"filesCount\":2,\"internalErrorsCount\":0"

/-- The frame of its reply to the second batch. -/
def secondReply : Bytes := resultFrame "" "\"filesCount\":1,\"internalErrorsCount\":0"

/-- The frame of its report. -/
def pickyReport : Bytes :=
  resultFrame "\"malformed message: invalid message: missing action\""
    "\"filesCount\":0,\"internalErrorsCount\":1"

set_option maxRecDepth 4000 in
/-- The messages are sent in these frames. -/
lemma encode_requests : requests.map Stream.encode = requestFrames.map .ok := by cbv

/-- The messages follow the schema. -/
lemma conforms_requests : ∀ m ∈ requests, m.Conforms := by
  simp only [requests, List.forall_mem_cons, List.not_mem_nil, false_implies, implies_true,
    and_true, Message.Conforms]
  decide +kernel

/-- An object without members is no message. -/
lemma decodeLine_braces :
    Stream.decodeLine (utf8 "\x7b\x7d") = some (.error (.malformed .actionMissing)) := by cbv

/-- What the connection brings. -/
lemma received_busyLine :
    busyLine.received = { messages := requests, error := some (.malformed .actionMissing) } := by
  have hline : Bytes.lines (utf8 "\x7b\x7d\n") = [utf8 "\x7b\x7d"] := by decide
  have hfit : ∀ line ∈ Bytes.lines (utf8 "\x7b\x7d\n"), line.length ≤ Stream.maxSize := by
    rw [hline]
    exact List.forall_mem_singleton.mpr (by decide)
  rw [Connection.received, busyLine,
    Stream.decode_frames_append encode_requests conforms_requests hfit, hline,
    Stream.decodeLines, decodeLine_braces]
  rfl

set_option maxRecDepth 4000 in
/-- The worker replies to the first batch what was found in `b`. -/
lemma replyTo_first : replyTo picky [utf8 "a", utf8 "b"] = .ok firstReply := by cbv

set_option maxRecDepth 4000 in
/-- The worker has nothing to say about the second batch. -/
lemma replyTo_second : replyTo picky [utf8 "c"] = .ok secondReply := by cbv

set_option maxRecDepth 4000 in
/-- The report of the worker. -/
lemma reportOf_actionMissing :
    reportOf default (.receive (.malformed .actionMissing)) = [pickyReport] := by cbv

/-- The replies of the worker, and the rest of its script. -/
lemma answers_requests :
    replies picky (batches requests) = [firstReply, secondReply] ∧
      answers default picky { messages := requests, error := some (.malformed .actionMissing) } =
        [firstReply, secondReply, pickyReport] := by
  have hbatches : batches requests = [[utf8 "a", utf8 "b"], [utf8 "c"]] := rfl
  have hreplies : replies picky (batches requests) = [firstReply, secondReply] := by
    rw [hbatches, replies, replyTo_first, replies, replyTo_second, replies]
  have hsendable : unsendable? picky (batches requests) = none := by
    rw [hbatches, unsendable?, replyTo_first, unsendable?, replyTo_second, unsendable?]
  refine ⟨hreplies, ?_⟩
  rw [answers, hreplies, failure?, hsendable, Option.map_none, Option.none_or, Option.map_some,
    Option.toList_some, List.flatMap_singleton, reportOf_actionMissing]
  rfl

/-- A worker that replies to two batches, passes over the message between them and reports the line
behind them; and one that comes to the second batch but cannot reply to it. -/
theorem serve_busyLine :
    Stream.encode (.hello (utf8 "w")) = .ok pickyHello ∧
      ((serve default (utf8 "w") picky busyLine).sent =
          [pickyHello, firstReply, secondReply, pickyReport] ∧
        (serve default (utf8 "w") picky busyLine).visited = [utf8 "a", utf8 "b", utf8 "c"] ∧
        (serve default (utf8 "w") picky busyLine).error ≠ none) ∧
      (serve default (utf8 "w") picky brokenLine).sent = [pickyHello, firstReply] ∧
      (serve default (utf8 "w") picky brokenLine).visited = [utf8 "a", utf8 "b", utf8 "c"] := by
  have hhello : Stream.encode (.hello (utf8 "w")) = .ok pickyHello := by cbv
  have hcalm : picky.NeverCancels := fun _ _ => rfl
  have hbroken : brokenLine.received =
      { messages := requests, error := some (.malformed .actionMissing) } := received_busyLine
  obtain ⟨hreplies, hanswers⟩ := answers_requests
  obtain ⟨hsent, -, hvisited, herror, -⟩ := serve_follows_script default hhello hcalm busyLine
  obtain ⟨hsent', -, hvisited', -⟩ := serve_follows_script default hhello hcalm brokenLine
  rw [received_busyLine, script, hanswers] at hsent
  rw [hbroken, script, hanswers] at hsent'
  rw [Connection.reached, received_busyLine, hreplies] at hvisited
  rw [Connection.reached, hbroken, hreplies] at hvisited'
  rw [received_busyLine] at herror
  refine ⟨hhello, ⟨hsent, hvisited, ?_⟩, hsent', hvisited'⟩
  intro hnone
  cases (herror.mp hnone).1

end LintPool.Worker
