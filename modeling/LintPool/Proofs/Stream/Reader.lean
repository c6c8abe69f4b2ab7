import LintPool.Proofs.Stream.RoundTrip
import LintPool.Stream.Reader

/-!
# What a reader answers

Whatever bytes a stream has, however it is cut into reads and however it ends, a reader answers with
the messages of the lines before the first bad one, in order. Then it says once what is wrong with
the bad line, or how the stream broke if there is none, and after that it says that the stream has
ended, whatever lines follow.

A line is bad if it is too long or holds no message; a blank line is neither bad nor does it hold a
message.

## Main definitions

* `LintPool.Stream.lineError?`, `LintPool.Stream.lineMessage?` : what is wrong with a line, and the
  message that it holds.
* `LintPool.Stream.transcript` : all that a reader has to say about some lines.
* `LintPool.Stream.Reader.due` : what a reader has still to say.

## Main results

* `LintPool.Stream.LineBuffer.fetch_spec` : what is fetched is the next line.
* `LintPool.Stream.Reader.next_eq` : a reader says what is due next.
* `LintPool.Stream.yields_decode` : a stream holds what its reader says.
* `LintPool.Stream.answers_on_any_stream` : what a reader answers on any stream.
-/

namespace LintPool.Stream

/-! ## Lines -/

/-- What is wrong with a line, if anything. -/
def lineError? (line : Bytes) : Option StreamError :=
  if maxSize < line.length then some .tooLarge
  else
    match decodeLine line with
    | some (.error e) => some e
    | _ => none

/-- The message that a line holds, if any. -/
def lineMessage? (line : Bytes) : Option Message :=
  match decodeLine line with
  | some (.ok m) => some m
  | _ => none

/-- All that there is to say about the lines of a stream that then ends: the messages of the lines
before the first bad one, and what is wrong with this one, or else with the end. -/
def transcript (ending : Ending) (lines : List Bytes) : List Answer :=
  ((lines.takeWhile fun line => (lineError? line).isNone).filterMap lineMessage?).map .message ++
    (((lines.findSome? lineError?).or ending.error?).map .error).toList

section Transcript

variable {line : Bytes} {ending : Ending} {e : StreamError} {m : Message}

/-- What is wrong with a line: it is too long, or its text is no message. -/
lemma lineError?_eq_some_iff :
    lineError? line = some e ↔
      maxSize < line.length ∧ e = .tooLarge ∨
        line.length ≤ maxSize ∧ Blank.trim (dropReturn line) ≠ [] ∧
          ∃ cause, Message.parse (Blank.trim (dropReturn line)) = .error cause ∧
            e = .malformed cause := by
  unfold lineError? decodeLine
  by_cases hlong : maxSize < line.length
  · rw [if_pos hlong, Option.some_inj, eq_comm]
    constructor
    · exact fun he => .inl ⟨hlong, he⟩
    · rintro (⟨-, he⟩ | ⟨hle, -⟩)
      · exact he
      · exact absurd hlong (Nat.not_lt.mpr hle)
  · rw [if_neg hlong]
    simp only [hlong, false_and, false_or, Nat.not_lt.mp hlong, true_and]
    generalize Blank.trim (dropReturn line) = text
    cases text with
    | nil => simp
    | cons a text => cases hparse : Message.parse (a :: text) <;> simp [eq_comm]

/-- The message of a line is that of its text, unless this is blank. -/
lemma lineMessage?_eq_some_iff :
    lineMessage? line = some m ↔
      Blank.trim (dropReturn line) ≠ [] ∧ Message.parse (Blank.trim (dropReturn line)) = .ok m := by
  unfold lineMessage? decodeLine
  generalize Blank.trim (dropReturn line) = text
  cases text with
  | nil => simp
  | cons a text => cases hparse : Message.parse (a :: text) <;> simp [hparse]

/-- What there is to say about a line of bearable length, and then about the others. -/
lemma transcript_cons (hlength : line.length ≤ maxSize) (lines : List Bytes) :
    transcript ending (line :: lines) =
      match decodeLine line with
      | none => transcript ending lines
      | some (.ok m) => .message m :: transcript ending lines
      | some (.error e) => [.error e] := by
  have herror : lineError? line = match decodeLine line with
      | some (.error e) => some e
      | _ => none := by rw [lineError?, if_neg (Nat.not_lt.mpr hlength)]
  unfold transcript
  rw [List.takeWhile_cons, List.findSome?_cons, herror]
  cases hdecode : decodeLine line with
  | none => simp [lineMessage?, hdecode]
  | some found =>
    cases found with
    | error e => simp
    | ok m => simp [lineMessage?, hdecode]

/-- A line that is too long is the last that there is something to say about. -/
lemma transcript_cons_of_long (hlength : maxSize < line.length) (lines : List Bytes) :
    transcript ending (line :: lines) = [.error .tooLarge] := by
  have herror : lineError? line = some .tooLarge := by rw [lineError?, if_pos hlength]
  simp [transcript, herror]

/-- Where there are no lines, there is the error of the end, if any. -/
lemma transcript_nil (ending : Ending) :
    transcript ending [] = (ending.error?.map Answer.error).toList := rfl

end Transcript

/-! ## One line after another -/

namespace LineBuffer

variable {limit : Nat}

/-- What is fetched from a stream whose lines are `lines`. -/
def FetchSpec (lines : List Bytes) : Fetched limit → Prop
  | .line line b reads =>
    line.length < limit ∧ lines = line :: Bytes.lines (b.held ++ reads.flatten)
  | .overflow => ∃ line rest, lines = line :: rest ∧ limit ≤ line.length
  | .ended => lines = []

/-- **What is fetched is the next line**, unless it does not fit in the buffer or there is none. -/
theorem fetch_spec (b : LineBuffer limit) (reads : List Bytes) :
    FetchSpec (Bytes.lines (b.held ++ reads.flatten)) (b.fetch reads) := by
  fun_induction b.fetch reads with
  | case1 b reads line b' hline =>
    obtain ⟨hnewline, hheld⟩ := held_of_line? hline
    have hle := b.length_held_le
    rw [hheld, List.length_append, List.length_cons] at hle
    refine ⟨by omega, ?_⟩
    rw [hheld, List.append_assoc, List.cons_append, Bytes.lines_append hnewline]
  | case2 b reads hline hroom =>
    have hlength := length_of_makeRoom? hroom
    have hpos := b.limit_pos
    have hne : b.held ≠ [] := List.ne_nil_of_length_pos (by omega)
    obtain ⟨t, ls, hlines⟩ := Bytes.lines_of_prefix (notMem_of_line? hline) hne reads.flatten
    refine ⟨_, ls, hlines, ?_⟩
    rw [List.length_append]
    omega
  | case3 b hline b' hfree hroom hempty =>
    have hheld : b'.held = b.held := held_of_makeRoom? hroom
    rw [hheld] at hempty
    rw [FetchSpec, List.flatten_nil, List.append_nil, Bytes.lines_of_notMem (notMem_of_line? hline),
      if_pos hempty]
  | case4 b hline b' hfree hroom hempty =>
    have hheld : b'.held = b.held := held_of_makeRoom? hroom
    have hnewline := notMem_of_line? hline
    rw [← hheld] at hnewline
    refine ⟨length_held_lt hfree, ?_⟩
    rw [← hheld]
    rw [List.flatten_nil, List.append_nil, Bytes.lines_of_notMem hnewline, if_neg hempty,
      held_handOut, List.drop_length]
    rfl
  | case5 b hline b' hfree reads hroom ih =>
    have hheld : b'.held = b.held := held_of_makeRoom? hroom
    rwa [hheld] at ih
  | case6 b hline b' hfree x read reads hroom ih =>
    have hheld : b'.held = b.held := held_of_makeRoom? hroom
    rwa [held_fill, hheld, List.flatten_cons, List.append_assoc,
      ← List.append_assoc (List.take _ _), List.take_append_drop, ← List.flatten_cons] at ih

end LineBuffer

/-! ## One answer after another -/

namespace Reader

/-- The lines that a reader has not handed out yet. -/
def lines (r : Reader) : List Bytes := Bytes.lines (r.buffer.held ++ r.reads.flatten)

/-- What a reader has still to say. -/
def due (r : Reader) : List Answer := if r.done then [] else transcript r.ending r.lines

/-- What a reader fetches is its next line. -/
lemma fetch_spec (r : Reader) {fetched : Fetched (maxSize + 1)}
    (h : r.buffer.fetch r.reads = fetched) : LineBuffer.FetchSpec r.lines fetched := by
  rw [← h]
  exact r.buffer.fetch_spec r.reads

/-- **A reader says what is due next**, and that the stream has ended if nothing is.

**Proof sketch.** By induction on the lines that are fetched. A blank line leaves what is due as it
is; any other line is answered by its message or its error, and behind an error nothing is due. -/
theorem next_eq (r : Reader) : r.next.1 = r.due.headD .eof ∧ r.next.2.due = r.due.tail := by
  fun_induction next r with
  | case1 r hdone => simp [due, hdone]
  | case2 r hdone line buffer reads hfetch hblank ih =>
    obtain ⟨hlength, hlines⟩ := r.fetch_spec hfetch
    have hdue : Reader.due { r with buffer, reads } = r.due := by
      rw [due, due, hlines, transcript_cons (Nat.le_of_lt_succ hlength), hblank]
      rfl
    rwa [hdue] at ih
  | case3 r hdone line buffer reads hfetch m hmessage =>
    obtain ⟨hlength, hlines⟩ := r.fetch_spec hfetch
    rw [due, due, if_neg hdone, hlines, transcript_cons (Nat.le_of_lt_succ hlength), hmessage]
    exact ⟨rfl, if_neg hdone⟩
  | case4 r hdone line buffer reads hfetch e herror =>
    obtain ⟨hlength, hlines⟩ := r.fetch_spec hfetch
    rw [due, due, if_neg hdone, hlines, transcript_cons (Nat.le_of_lt_succ hlength), herror]
    exact ⟨rfl, rfl⟩
  | case5 r hdone hfetch =>
    obtain ⟨line, rest, hlines, hlength⟩ := r.fetch_spec hfetch
    rw [due, due, if_neg hdone, hlines, transcript_cons_of_long hlength]
    exact ⟨rfl, rfl⟩
  | case6 r hdone hfetch =>
    have hlines : r.lines = [] := r.fetch_spec hfetch
    rw [due, due, if_neg hdone, hlines, transcript_nil]
    cases r.ending with
    | closed => exact ⟨rfl, rfl⟩
    | broken cause => exact ⟨rfl, rfl⟩

/-- The answers to some requests are what is due, and from then on that the stream has ended. -/
theorem answers_eq (r : Reader) (n : Nat) :
    r.answers n = (r.due ++ List.replicate n Answer.eof).take n := by
  induction n generalizing r with
  | zero => rfl
  | succ n ih =>
    obtain ⟨hanswer, hdue⟩ := r.next_eq
    rw [answers, ih, hanswer, hdue]
    cases r.due with
    | nil => simp [List.replicate_succ]
    | cons a due =>
      have hshort : (due ++ List.replicate (n + 1) Answer.eof).take n =
          (due ++ List.replicate n Answer.eof).take n := by
        rw [List.replicate_succ', ← List.append_assoc, List.take_append_of_le_length (by simp)]
      rw [List.cons_append, List.take_succ_cons, hshort]
      rfl

/-- An error is the last thing that is due, and it is never due to say that the stream has ended. -/
lemma due_cases (r : Reader) :
    r.due = [] ∨ (∃ e, r.due = [.error e]) ∨ ∃ m due, r.due = .message m :: due := by
  rw [due]
  split
  · exact .inl rfl
  · rw [transcript]
    cases (r.lines.takeWhile fun line => (lineError? line).isNone).filterMap lineMessage? with
    | cons m ms => exact .inr (.inr ⟨m, _, rfl⟩)
    | nil =>
      cases (r.lines.findSome? lineError?).or r.ending.error? with
      | none => exact .inl rfl
      | some e => exact .inr (.inl ⟨e, rfl⟩)

/-- What was due before an answer after which `rest` is due. -/
def dueBefore (rest : List Answer) : Answer → List Answer
  | .eof => []
  | .error e => [.error e]
  | .message m => .message m :: rest

/-- What was due before an answer is this answer and what is due after it. -/
lemma due_of_next {r r' : Reader} {a : Answer} (h : r.next = (a, r')) :
    r.due = dueBefore r'.due a := by
  obtain ⟨hanswer, hdue⟩ := r.next_eq
  rw [h] at hanswer hdue
  change a = _ at hanswer
  change r'.due = _ at hdue
  rcases r.due_cases with hnil | ⟨e, herror⟩ | ⟨m, due, hmessage⟩
  · rw [hanswer, hnil]
    rfl
  · rw [hanswer, herror]
    rfl
  · rw [hanswer, hdue, hmessage]
    rfl

/-- **An observer sees all that is due**, or as much as it wants. -/
theorem messages_eq (r : Reader) (limit : Nat) :
    (r.messages limit).1 = if limit = 0 then r.due else r.due.take limit := by
  fun_induction messages r limit with
  | case1 r limit r' hnext => simp [due_of_next hnext, dueBefore]
  | case2 r limit e r' hnext =>
    rw [due_of_next hnext, dueBefore]
    cases limit with
    | zero => rfl
    | succ n => simp
  | case3 r m r' hnext => simp [due_of_next hnext, dueBefore]
  | case4 r limit m r' hnext hlimit rest r'' hrest ih =>
    rw [due_of_next hnext, dueBefore]
    rw [hrest] at ih
    change rest = _ at ih
    rw [ih]
    match limit with
    | 0 => rfl
    | n + 2 => rfl

/-- A reader that has read nothing yet has to say all about its stream. -/
lemma due_ofStream (s : Bytes) (ending : Ending) (cuts : List Nat) :
    (ofStream s ending cuts).due = transcript ending (Bytes.lines s) := by
  have hlines : (ofStream s ending cuts).lines = Bytes.lines s := by
    rw [lines, ofStream, emptyBuffer, List.nil_append, flatten_pieces]
  rw [due, hlines]
  rfl

end Reader

/-- What a stream holds is said by its reader. -/
theorem yields_decode (s : Bytes) (ending : Ending) (cuts : List Nat) :
    (decode s ending cuts).yields = transcript ending (Bytes.lines s) := by
  have hlines : ∀ (acc : List Message) (lines : List Bytes),
      (decodeLines (if lines.any (maxSize < ·.length) then some .tooLarge else ending.error?) acc
        (lines.takeWhile (·.length ≤ maxSize))).yields =
          acc.reverse.map .message ++ transcript ending lines := by
    intro acc lines
    induction lines generalizing acc with
    | nil => rfl
    | cons line lines ih =>
      by_cases hlong : maxSize < line.length
      · rw [transcript_cons_of_long hlong]
        simp [hlong, Nat.not_le.mpr hlong, decodeLines, Decoded.yields]
      · have hlength := Nat.not_lt.mp hlong
        rw [transcript_cons hlength]
        simp only [List.any_cons, hlong, decide_false, Bool.false_or, List.takeWhile_cons, hlength,
          decide_true, if_true, decodeLines]
        cases decodeLine line with
        | none => exact ih acc
        | some found =>
          cases found with
          | error e => rfl
          | ok m => simpa using ih (m :: acc)
  rw [decode_eq, hlines]
  rfl

/-- The error of a malformed line says that its message is invalid. -/
lemma isPrefix_malformed (w : Json.Wording) (cause : Message.ParseError) :
    utf8 "malformed message: invalid message: " <+: (StreamError.malformed cause).message w := by
  have htexts : utf8 "malformed message: invalid message: " =
      utf8 "malformed message: " ++ utf8 "invalid message: " := by decide
  rw [htexts, StreamError.message, List.prefix_append_right_inj,
    Message.ParseError.message.eq_def]
  exact List.prefix_append _ _

/-- **What a reader answers on any stream.** Whatever the bytes of a stream are, however it is cut
into reads and however it ends, the answers are the messages of the lines before the first bad one,
then what is wrong with that line, or with the end of the stream if there is none, and then for ever
that the stream has ended. An observer of the messages sees the same but for the end. A line is bad
if it is too long or if it is not blank and holds no message, which is said to be malformed and
invalid. -/
theorem answers_on_any_stream (s : Bytes) (ending : Ending) (cuts : List Nat) :
    (∀ n, (Reader.ofStream s ending cuts).answers n =
      (transcript ending (Bytes.lines s) ++ List.replicate n Answer.eof).take n) ∧
    (Reader.ofStream s ending cuts).messages.1 = transcript ending (Bytes.lines s) ∧
    (∀ line m, lineMessage? line = some m ↔
      Blank.trim (dropReturn line) ≠ [] ∧
        Message.parse (Blank.trim (dropReturn line)) = .ok m) ∧
    (∀ line e, lineError? line = some e ↔
      maxSize < line.length ∧ e = .tooLarge ∨
        line.length ≤ maxSize ∧ Blank.trim (dropReturn line) ≠ [] ∧
          ∃ cause, Message.parse (Blank.trim (dropReturn line)) = .error cause ∧
            e = .malformed cause) ∧
    ∀ w cause, utf8 "malformed message: invalid message: " <+:
      (StreamError.malformed cause).message w := by
  refine ⟨fun n => ?_, ?_, fun line m => lineMessage?_eq_some_iff,
    fun line e => lineError?_eq_some_iff, isPrefix_malformed⟩
  · rw [Reader.answers_eq, Reader.due_ofStream]
  · rw [Reader.messages_eq, if_pos rfl, Reader.due_ofStream]

end LintPool.Stream
